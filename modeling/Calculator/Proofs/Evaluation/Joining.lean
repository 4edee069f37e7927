import Calculator.Proofs.Evaluation.Relocation
import Calculator.Proofs.Grammar.Joining

/-!
Running two sources with a line break between them is running one after the other. Nothing but the
places of what the second source says is different.
-/

namespace Calculator

variable {V : Type}

/-- The ways in which something can stand in a text that has been put behind another. -/
def ShiftedBy (bytes : Nat) (move : Nat → Nat) : Prop := move = id ∨ move = (· + bytes)

theorem Session.Alike.refl {moves : (Nat → Nat) → Prop} (still : moves id) (session : Session V) :
    Session.Alike (.moving moves) session session := by
  have bindings : ∀ binding : Binding V, Binding.Alike (.moving moves) binding binding := by
    intro binding
    cases binding with
    | number value => exact .number rfl
    | function definition => exact .function ⟨id, still, definition.relocate_id.symm⟩
  have frames : ∀ frame : Frame V, Frame.Alike (.moving moves) frame frame :=
    fun frame => List.forall₂_same.mpr fun entry _ => ⟨rfl, bindings entry.2⟩
  exact ⟨⟨frames _, List.forall₂_same.mpr fun frame _ => frames frame⟩,
    List.forall₂_same.mpr fun _ _ => rfl⟩

theorem MovedOutcome.refl {moves : (Nat → Nat) → Prop} (still : moves id)
    (outcome : Except EvalError (Option V) × Session V) :
    MovedOutcome moves Eq outcome outcome := by
  rcases outcome with ⟨_ | value, later⟩
  · exact ⟨.error _ _ still, .refl still later⟩
  · exact ⟨.ok rfl, .refl still later⟩

variable [Arithmetic V]

/-- Runs a program and then another in the session that the first leaves, if it has not failed. The
value is that of the second, or of the first if the second has no statements. -/
def Program.evalInTurn (depth : Nat) (first second : Program) : Eval V (Option V) := do
  let value ← first.eval depth
  if second.isEmpty then return value else second.eval depth

theorem run_evalStatements_append (call : Invoke V) (front back : List Statement)
    (last : Option V) (session : Session V) :
    (evalStatements call last (front ++ back)).run session =
      (evalStatements call last front >>= fun last => evalStatements call last back).run session := by
  induction front generalizing last session with
  | nil =>
    simp only [List.nil_append, evalStatements]
    rfl
  | cons statement front ih =>
    simp only [List.cons_append, evalStatements, Eval.run_bind]
    rcases statement.eval call |>.run session with _ | ⟨_ | value, later⟩
    · rfl
    · rfl
    · simp only [ih, Eval.run_bind]

theorem evalStatements_of_last (call : Invoke V) (last : Option V) (statements : List Statement) :
    evalStatements call last statements =
      if statements.isEmpty then pure last else evalStatements call none statements := by
  cases statements with
  | nil => simp [evalStatements]
  | cons statement statements => simp [evalStatements]

theorem run_evalInTurn (depth : Nat) (first second : Program) (session : Session V) :
    (Program.evalInTurn depth first second).run session =
      ((evalStatements (invoke depth) none first >>= fun last =>
        evalStatements (invoke depth) last second) : Eval V (Option V)).run session := by
  rw [Program.evalInTurn, Eval.run_bind, Eval.run_bind, Program.eval]
  rcases (evalStatements (invoke depth) none first).run session with _ | ⟨_ | value, later⟩
  · rfl
  · rfl
  · simp only [evalStatements_of_last (invoke depth) value second]
    rfl

theorem eval_append_moves {moves : (Nat → Nat) → Prop} {move : Nat → Nat} (still : moves id)
    (allowed : moves move) (depth : Nat) (first second : Program) (session : Session V) :
    Option.Rel (MovedOutcome moves Eq) ((Program.evalInTurn depth first second).run session)
      ((Program.eval depth (first ++ Program.relocate move second)).run session) := by
  rw [run_evalInTurn, Program.eval, run_evalStatements_append, Eval.run_bind, Eval.run_bind]
  rcases (evalStatements (invoke depth) none first).run session with _ | ⟨error | value, later⟩
  · exact .none
  · exact .some (.refl still _)
  · exact evalStatements_moves (invoke_moves depth) allowed second value later later
      (.refl still later)

/-- Two sources with a line break between them parse to the statements of both, those of the second
source moved by the bytes in front of it. A run of them comes to what runs of the two in turn come
to: where the first fails to the very same, else to the same up to this move. -/
theorem joined_lines_run_in_turn (skips : Bool) (front back : String) (first second : Program)
    (parsed : parse skips front = .ok first) (parsed' : parse skips back = .ok second) :
    let bytes := front.utf8ByteSize + 1
    let joined : Program := first ++ second.shift bytes
    parse skips (joinLines front back) = .ok joined ∧
      ∀ (V : Type) [Arithmetic V] (depth : Nat) (session : Session V),
        (∀ error later, (first.eval depth).run session = some (.error error, later) →
          (joined.eval depth).run session = some (.error error, later)) ∧
        Option.Rel (MovedOutcome (ShiftedBy bytes) Eq)
          ((Program.evalInTurn depth first second).run session)
          ((joined.eval depth).run session) := by
  intro bytes joined
  constructor
  · rw [parse_eq_ok] at parsed parsed' ⊢
    exact parse_joinLines parsed parsed'
  · intro V _ depth session
    constructor
    · intro error later failed
      have whole : (joined.eval depth).run session = _ :=
        run_evalStatements_append (invoke depth) first (second.shift bytes) none session
      rw [whole]
      exact Eval.run_bind_error failed _
    · exact eval_append_moves (.inl rfl) (.inr rfl) depth first second session

theorem number_then_unbound_name :
    (parse true "1" = .ok [.expression (.number (.int 1) false 0)] ∧
      parse true "y" = .ok [.expression (.name "y" 0)]) ∧
    parse true (joinLines "1" "y") =
      .ok [.expression (.number (.int 1) false 0), .expression (.name "y" 2)] ∧
    Option.Rel (MovedOutcome (ShiftedBy 2) Eq)
      (some (.error ⟨.unbound "y", 0⟩, (.start : Session Int64)))
      ((Program.eval 0 [.expression (.number (.int 1) false 0), .expression (.name "y" 2)]).run
        (.start : Session Int64)) := by
  have one : (Lexer.standard true).tokens (.start "1") = ([⟨.number, "1", 0⟩], .ok 1) :=
    (Lexer.Lexes.single (List.cons_ne_nil '1' []) (by decide)).tokens_eq
  have letter : (Lexer.standard true).tokens (.start "y") = ([⟨.identifier, "y", 0⟩], .ok 1) :=
    (Lexer.Lexes.single (List.cons_ne_nil 'y' []) (by decide)).tokens_eq
  have parsed : parse true "1" = .ok [.expression (.number (.int 1) false 0)] := by
    rw [parse, Program.parse, Stream.ofSource, one]
    rfl
  have parsed' : parse true "y" = .ok [.expression (.name "y" 0)] := by
    rw [parse, Program.parse, Stream.ofSource, letter]
    rfl
  have joined := joined_lines_run_in_turn true "1" "y" _ _ parsed parsed'
  exact ⟨⟨parsed, parsed'⟩, joined.1, (joined.2 Int64 0 .start).2⟩

end Calculator

import Calculator.Proofs.Evaluation.Depth
import Calculator.Proofs.Evaluation.Keeps

/-!
What evaluation leaves as it was. An expression and a block change no binding, whatever the
functions they call do and however they end; a statement changes the innermost frame alone.
-/

namespace Calculator

variable {V α : Type}

/-- From one session to the other, numbers may have been printed and nothing else has happened. -/
structure OnlyPrints (before after : Session V) : Prop where
  scopes : after.scopes = before.scopes
  printed : ∃ more, after.printed = before.printed ++ more

/-- From one session to the other, the frames around the innermost one have stayed as they were. -/
structure StaysInFrame (before after : Session V) : Prop where
  enclosing : after.scopes.enclosing = before.scopes.enclosing
  printed : ∃ more, after.printed = before.printed ++ more

theorem printed_trans {first second third : Array V} (low : ∃ more, second = first ++ more)
    (high : ∃ more, third = second ++ more) : ∃ more, third = first ++ more := by
  rcases low with ⟨more, rfl⟩
  rcases high with ⟨further, rfl⟩
  exact ⟨more ++ further, Array.append_assoc⟩

instance : IsPreorder (Session V) OnlyPrints where
  refl _ := ⟨rfl, #[], Array.append_empty.symm⟩
  trans _ _ _ low high :=
    ⟨high.scopes.trans low.scopes, printed_trans low.printed high.printed⟩

instance : IsPreorder (Session V) StaysInFrame where
  refl _ := ⟨rfl, #[], Array.append_empty.symm⟩
  trans _ _ _ low high :=
    ⟨high.enclosing.trans low.enclosing, printed_trans low.printed high.printed⟩

theorem OnlyPrints.staysInFrame {before after : Session V} (prints : OnlyPrints before after) :
    StaysInFrame before after :=
  ⟨by rw [prints.scopes], prints.printed⟩

theorem StaysInFrame.depth {before after : Session V} (stays : StaysInFrame before after) :
    after.scopes.depth = before.scopes.depth := by
  simp only [Scopes.depth, stays.enclosing]

theorem modifyScopes_staysInFrame {change : Scopes V → Scopes V}
    (inner : ∀ scopes, (change scopes).enclosing = scopes.enclosing) :
    (Eval.modifyScopes change).Keeps StaysInFrame := by
  intro before result after ends
  rw [Eval.run_modifyScopes] at ends
  cases ends
  exact ⟨inner before.scopes, #[], Array.append_empty.symm⟩

theorem emit_onlyPrints (value : V) : (Eval.emit value).Keeps OnlyPrints := by
  intro before result after ends
  rw [Eval.run_emit] at ends
  cases ends
  exact ⟨rfl, #[value], Array.push_eq_append⟩

/-- A frame is left with all that was bound in it, also on failure. -/
theorem inFrame_onlyPrints {action : Eval V α} (kept : action.Keeps StaysInFrame) :
    (Eval.inFrame action).Keeps OnlyPrints := by
  intro before result after ends
  rcases Eval.run_inFrame_cases ends with ⟨later, inside, rfl⟩
  have stays := kept _ _ _ inside
  exact ⟨Scopes.pop_of_enclosing stays.enclosing, stays.printed⟩

theorem bindParams_staysInFrame (params : List String) (values : List V) :
    (bindParams params values).Keeps StaysInFrame := by
  apply modifyScopes_staysInFrame
  intro scopes
  induction params.zip values generalizing scopes with
  | nil => rfl
  | cons entry entries ih => exact ih (scopes.define entry.1 (.number entry.2))

variable [Arithmetic V]

theorem assign_staysInFrame (name : String) (declared : Option NumberType) (value : V) (pos : Nat) :
    (assign name declared value pos).Keeps StaysInFrame := by
  refine Eval.keeps_bind Eval.keeps_scopes ?_
  intro scopes
  refine Eval.keeps_bind (Eval.keeps_ofExcept pos _) ?_
  intro stored
  refine Eval.keeps_bind ?_ fun _ => Eval.keeps_pure _
  exact modifyScopes_staysInFrame fun _ => rfl

theorem allows_staysInFrame {call : Invoke V}
    (calls : call.Keeps OnlyPrints) :
    Allows call StaysInFrame where
  exprs expr := Eval.keeps_mono (fun _ _ => OnlyPrints.staysInFrame) (expr.eval_keeps calls)
  assigns := assign_staysInFrame
  defines _ := modifyScopes_staysInFrame fun _ => rfl
  clears := modifyScopes_staysInFrame fun _ => rfl
  emits value := Eval.keeps_mono (fun _ _ => OnlyPrints.staysInFrame) (emit_onlyPrints value)
  frames _ kept := Eval.keeps_mono (fun _ _ => OnlyPrints.staysInFrame) (inFrame_onlyPrints kept)

theorem invoke_onlyPrints (depth : Nat) (definition : Definition) (values : List V) :
    (invoke depth definition values).Keeps OnlyPrints := by
  -- A body makes its calls with one open call less, so the hypothesis covers them.
  induction depth generalizing definition values with
  | zero =>
    intro before result after ends
    cases ends
  | succ depth ih =>
    apply inFrame_onlyPrints
    refine Eval.keeps_bind (bindParams_staysInFrame _ _) ?_
    intro _
    exact evalStatements_keeps (allows_staysInFrame ih) none _

theorem Expr.eval_onlyPrints (depth : Nat) (expr : Expr) :
    (expr.eval (invoke depth) : Eval V _).Keeps OnlyPrints :=
  expr.eval_keeps (invoke_onlyPrints depth)

theorem evalLinks_onlyPrints (depth : Nat) (value : V) (links : List Link) :
    (evalLinks (invoke depth) value links).Keeps OnlyPrints :=
  evalLinks_keeps (invoke_onlyPrints depth) value links

theorem evalArguments_onlyPrints (depth : Nat) (arguments : List Expr) :
    (evalArguments (invoke depth) arguments : Eval V _).Keeps OnlyPrints :=
  evalArguments_keeps (invoke_onlyPrints depth) arguments

theorem Expr.value_onlyPrints (depth : Nat) (expr : Expr) :
    (expr.value (invoke depth) : Eval V _).Keeps OnlyPrints :=
  expr.value_keeps (invoke_onlyPrints depth)

theorem Statement.eval_staysInFrame (depth : Nat) (statement : Statement) :
    (statement.eval (invoke depth) : Eval V _).Keeps StaysInFrame :=
  statement.eval_keeps (allows_staysInFrame (invoke_onlyPrints depth))

theorem evalStatements_staysInFrame (depth : Nat) (last : Option V) (statements : List Statement) :
    (evalStatements (invoke depth) last statements).Keeps StaysInFrame :=
  evalStatements_keeps (allows_staysInFrame (invoke_onlyPrints depth)) last statements

theorem Block.eval_onlyPrints (depth : Nat) (body : Block) :
    (body.eval (invoke depth) : Eval V _).Keeps OnlyPrints := by
  rcases body with ⟨statements, pos⟩
  simp only [Block.eval]
  exact inFrame_onlyPrints (evalStatements_staysInFrame depth none statements)

/-- Expressions and blocks leave the bindings as they were; statements leave the number of frames
and every frame but the innermost. -/
theorem evaluation_keeps_frames (before : Session V) :
    (∀ (expr : Expr) result after, Eval.Ends (expr.eval ·) before result after →
      after.scopes = before.scopes) ∧
    (∀ (body : Block) result after,
      Eval.Ends ((Statement.block body).eval ·) before result after →
        after.scopes = before.scopes) ∧
    (∀ (statement : Statement) result after, Eval.Ends (statement.eval ·) before result after →
      after.scopes.depth = before.scopes.depth ∧
        after.scopes.enclosing = before.scopes.enclosing) ∧
    ∀ (statements : List Statement) result after,
      Eval.Ends (evalStatements · none statements) before result after →
        after.scopes.depth = before.scopes.depth ∧
          after.scopes.enclosing = before.scopes.enclosing := by
  refine ⟨?_, ?_, ?_, ?_⟩
  · rintro expr result after ⟨depth, ends⟩
    exact (expr.eval_onlyPrints depth before result after ends).scopes
  · rintro body result after ⟨depth, ends⟩
    simp only [Statement.eval] at ends
    exact (body.eval_onlyPrints depth before result after ends).scopes
  · rintro statement result after ⟨depth, ends⟩
    have stays := statement.eval_staysInFrame depth before result after ends
    exact ⟨stays.depth, stays.enclosing⟩
  · rintro statements result after ⟨depth, ends⟩
    have stays := evalStatements_staysInFrame depth none statements before result after ends
    exact ⟨stays.depth, stays.enclosing⟩

/-- Prints its argument, calls itself with one less until zero, drops its frame and then asks for
the argument again. -/
def countdown : Definition :=
  ⟨"countdown", ["n"],
    ⟨[.print (.name "n" 0) 0,
      .ifThen (.name "n" 0)
        (.expression (.call "countdown"
          [.chain (.name "n" 0) [⟨.sub, .number (.int 1) false 0, 0⟩]] 0)) 0,
      .reset 0,
      .expression (.name "n" 7)], 0⟩, 0⟩

def countdownFromTwo : Expr := .call "countdown" [.number (.int 2) false 0] 0

def assignY : Statement := .assign "y" none (.number (.int 5) false 0) 0

def countdownBlock : Statement := .block ⟨[assignY, .expression countdownFromTwo], 0⟩

def countdownProgram : Program :=
  [.reset 0, assignY, .print (.name "y" 0) 0, .expression countdownFromTwo, assignY]

def countdownSession (innermost : Frame Int64) (printed : Array Int64) : Session Int64 :=
  ⟨⟨innermost, [[("countdown", .function countdown)]]⟩, printed⟩

def countdownStart : Session Int64 := countdownSession [("x", .number 1)] #[]

theorem countdownFromTwo_ends :
    Eval.Ends (countdownFromTwo.eval ·) countdownStart (.error ⟨.unbound "n", 7⟩)
      (countdownSession [("x", .number 1)] #[2, 1, 0]) :=
  ⟨3, rfl⟩

theorem countdownBlock_ends :
    Eval.Ends (countdownBlock.eval ·) countdownStart (.error ⟨.unbound "n", 7⟩)
      (countdownSession [("x", .number 1)] #[2, 1, 0]) :=
  ⟨3, rfl⟩

theorem countdownProgram_ends :
    Eval.Ends (evalStatements · none countdownProgram) countdownStart (.error ⟨.unbound "n", 7⟩)
      (countdownSession [("y", .number 5)] #[5, 2, 1, 0]) :=
  ⟨3, rfl⟩

theorem countdown_keeps_frames :
    (Eval.Ends (countdownFromTwo.eval ·) countdownStart (.error ⟨.unbound "n", 7⟩)
        (countdownSession [("x", .number 1)] #[2, 1, 0]) ∧
      (countdownSession [("x", .number 1)] #[2, 1, 0]).scopes = countdownStart.scopes) ∧
    (Eval.Ends (countdownBlock.eval ·) countdownStart (.error ⟨.unbound "n", 7⟩)
        (countdownSession [("x", .number 1)] #[2, 1, 0]) ∧
      (countdownSession [("x", .number 1)] #[2, 1, 0]).scopes = countdownStart.scopes) ∧
    (Eval.Ends (assignY.eval ·) countdownStart (.ok (some 5))
        (countdownSession [("y", .number 5), ("x", .number 1)] #[]) ∧
      (countdownSession [("y", .number 5), ("x", .number 1)] #[]).scopes.enclosing =
        countdownStart.scopes.enclosing) ∧
    (Eval.Ends (evalStatements · none countdownProgram) countdownStart
        (.error ⟨.unbound "n", 7⟩) (countdownSession [("y", .number 5)] #[5, 2, 1, 0]) ∧
      (countdownSession [("y", .number 5)] #[5, 2, 1, 0]).scopes.enclosing =
        countdownStart.scopes.enclosing) := by
  have assigned : Eval.Ends (assignY.eval ·) countdownStart (.ok (some 5))
      (countdownSession [("y", .number 5), ("x", .number 1)] #[]) := ⟨0, rfl⟩
  have kept := evaluation_keeps_frames countdownStart
  exact ⟨⟨countdownFromTwo_ends, kept.1 _ _ _ countdownFromTwo_ends⟩,
    ⟨countdownBlock_ends, kept.2.1 _ _ _ countdownBlock_ends⟩,
    ⟨assigned, (kept.2.2.1 _ _ _ assigned).2⟩,
    ⟨countdownProgram_ends, (kept.2.2.2 _ _ _ countdownProgram_ends).2⟩⟩

end Calculator

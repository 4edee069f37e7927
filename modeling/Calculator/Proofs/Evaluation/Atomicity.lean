import Calculator.Proofs.Evaluation.Frames

/-!
What a failure leaves behind. A statement that fails has changed no binding, whatever it did before
it failed, and what it printed by then stays printed.
-/

namespace Calculator

variable {V α β : Type}

def Eval.Atomic (action : Eval V α) : Prop :=
  ∀ before error after, action.run before = some (.error error, after) → OnlyPrints before after

namespace Eval

theorem atomic_of_keeps {action : Eval V α} (kept : action.Keeps OnlyPrints) : action.Atomic := by
  intro before error after ends
  exact kept before _ after ends

theorem atomic_of_succeeds {action : Eval V α}
    (succeeds : ∀ before, ∃ value after, action.run before = some (.ok value, after)) :
    action.Atomic := by
  intro before error after ends
  rcases succeeds before with ⟨value, later, ended⟩
  rw [ended] at ends
  cases ends

/-- The first part may print and nothing else, since the second may fail after it. -/
theorem atomic_bind {action : Eval V α} {next : α → Eval V β} (first : action.Keeps OnlyPrints)
    (rest : ∀ value, (next value).Atomic) : (action >>= next).Atomic := by
  intro before error after ends
  rcases run_bind_cases ends with ⟨value, later, started, ended⟩ | ⟨error', later, started, same⟩
  · have begun := first before _ later started
    exact trans_of OnlyPrints begun (rest value later error after ended)
  · cases same
    exact first before _ after started

end Eval

variable [Arithmetic V]

theorem assign_atomic (name : String) (declared : Option NumberType) (value : V) (pos : Nat) :
    (assign name declared value pos).Atomic := by
  refine Eval.atomic_bind Eval.keeps_scopes ?_
  intro scopes
  refine Eval.atomic_bind (Eval.keeps_ofExcept pos _) ?_
  intro stored
  exact Eval.atomic_of_succeeds fun _ => ⟨_, _, rfl⟩

theorem Statement.eval_atomic (depth : Nat) (statement : Statement) :
    (statement.eval (invoke depth) : Eval V _).Atomic := by
  cases statement with
  | assign name declared value pos =>
    simp only [Statement.eval]
    refine Eval.atomic_bind (value.value_onlyPrints depth) ?_
    intro value
    exact assign_atomic name declared value pos
  | define definition =>
    simp only [Statement.eval]
    exact Eval.atomic_of_succeeds fun _ => ⟨_, _, rfl⟩
  | block body =>
    simp only [Statement.eval]
    exact Eval.atomic_of_keeps (body.eval_onlyPrints depth)
  | ifThen condition consequence pos =>
    simp only [Statement.eval]
    refine Eval.atomic_bind (condition.value_onlyPrints depth) ?_
    intro value
    split
    · exact consequence.eval_atomic depth
    · exact Eval.atomic_of_keeps (Eval.keeps_pure none)
  | ifElse condition consequence alternative pos =>
    simp only [Statement.eval]
    refine Eval.atomic_bind (condition.value_onlyPrints depth) ?_
    intro value
    split
    · exact consequence.eval_atomic depth
    · exact alternative.eval_atomic depth
  | print expr pos =>
    simp only [Statement.eval]
    refine Eval.atomic_bind (expr.value_onlyPrints depth) ?_
    intro value
    exact Eval.atomic_of_succeeds fun _ => ⟨_, _, rfl⟩
  | reset pos =>
    simp only [Statement.eval]
    exact Eval.atomic_of_succeeds fun _ => ⟨_, _, rfl⟩
  | expression expr =>
    simp only [Statement.eval]
    exact Eval.atomic_of_keeps (expr.eval_onlyPrints depth)

theorem evalStatements_error {call : Invoke V} {last : Option V} {statements : List Statement}
    {before after : Session V} {error : EvalError}
    (ends : (evalStatements call last statements).run before = some (.error error, after)) :
    ∃ front statement back value later, statements = front ++ statement :: back ∧
      (evalStatements call last front).run before = some (.ok value, later) ∧
      (statement.eval call).run later = some (.error error, after) := by
  induction statements generalizing last before with
  | nil =>
    simp only [evalStatements] at ends
    cases ends
  | cons statement statements ih =>
    simp only [evalStatements] at ends
    rcases Eval.run_bind_cases ends with ⟨value, later, started, ended⟩ | ⟨_, _, started, same⟩
    · rcases ih ended with ⟨front, failing, back, value', later', rfl, passed, failed⟩
      refine ⟨statement :: front, failing, back, value', later', rfl, ?_, failed⟩
      simp only [evalStatements]
      rw [Eval.run_bind_ok started]
      exact passed
    · cases same
      refine ⟨[], statement, statements, last, before, rfl, ?_, started⟩
      simp only [evalStatements]
      rfl

/-- A statement that fails leaves the bindings as they were. A program that fails leaves the bindings
that the statements before the failing one made, and has printed what they did and what that one
did. No evaluation takes back what has been printed. -/
theorem failure_keeps_bindings (before : Session V) :
    (∀ (statement : Statement) error after,
      Eval.Ends (statement.eval ·) before (.error error) after →
        after.scopes = before.scopes ∧ ∃ more, after.printed = before.printed ++ more) ∧
    (∀ (program : Program) error after,
      Eval.Ends (evalStatements · none program) before (.error error) after →
        ∃ front statement back value later, program = front ++ statement :: back ∧
          Eval.Ends (evalStatements · none front) before (.ok value) later ∧
          (∀ result other, Eval.Ends (evalStatements · none front) before result other →
            result = .ok value ∧ other = later) ∧
          Eval.Ends (statement.eval ·) later (.error error) after ∧
          after.scopes = later.scopes ∧
          ∃ earlier more, later.printed = before.printed ++ earlier ∧
            after.printed = before.printed ++ earlier ++ more) ∧
    ∀ (program : Program) result after, Eval.Ends (evalStatements · none program) before result after →
      ∃ more, after.printed = before.printed ++ more := by
  refine ⟨?_, ?_, ?_⟩
  · rintro statement error after ⟨depth, ends⟩
    have prints := statement.eval_atomic depth before error after ends
    exact ⟨prints.scopes, prints.printed⟩
  · rintro program error after ⟨depth, ends⟩
    obtain ⟨front, statement, back, value, later, split, passed, failed⟩ :=
      evalStatements_error ends
    have prints := statement.eval_atomic depth later error after failed
    have stays := evalStatements_staysInFrame depth none front before _ later passed
    rcases stays.printed with ⟨earlier, first⟩
    rcases prints.printed with ⟨more, second⟩
    refine ⟨front, statement, back, value, later, split, ⟨depth, passed⟩, ?_, ⟨depth, failed⟩,
      prints.scopes, earlier, more, first, ?_⟩
    · intro result other ends
      exact evalStatements_ends_unique ends ⟨depth, passed⟩
    · rw [second, first]
  · rintro program result after ⟨depth, ends⟩
    exact (evalStatements_staysInFrame depth none program before result after ends).printed

theorem countdown_failure_keeps_bindings :
    (Eval.Ends (countdownBlock.eval ·) countdownStart (.error ⟨.unbound "n", 7⟩)
        (countdownSession [("x", .number 1)] #[2, 1, 0]) ∧
      ∃ more, (countdownSession [("x", .number 1)] #[2, 1, 0]).printed =
        countdownStart.printed ++ more) ∧
    Eval.Ends (evalStatements · none countdownProgram) countdownStart (.error ⟨.unbound "n", 7⟩)
      (countdownSession [("y", .number 5)] #[5, 2, 1, 0]) ∧
    (∃ front statement back value later, countdownProgram = front ++ statement :: back ∧
      Eval.Ends (evalStatements · none front) countdownStart (.ok value) later ∧
      (countdownSession [("y", .number 5)] #[5, 2, 1, 0]).scopes = later.scopes) ∧
    ∃ more, (countdownSession [("y", .number 5)] #[5, 2, 1, 0]).printed =
      countdownStart.printed ++ more := by
  have kept := failure_keeps_bindings countdownStart
  obtain ⟨front, statement, back, value, later, split, passed, _, _, bindings, _⟩ :=
    kept.2.1 _ _ _ countdownProgram_ends
  exact ⟨⟨countdownBlock_ends, (kept.1 _ _ _ countdownBlock_ends).2⟩, countdownProgram_ends,
    ⟨front, statement, back, value, later, split, passed, bindings⟩,
    kept.2.2 _ _ _ countdownProgram_ends⟩

end Calculator

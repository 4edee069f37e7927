import Calculator.Evaluation

/-!
What evaluation comes to when no bound is set on the calls that may be open. A bound that suffices
decides the outcome, and every larger bound gives the same.
-/

namespace Calculator

namespace Eval

variable {V α β : Type}

/-- Where the lesser action has an outcome, the greater one has the same. -/
def Below (less more : Eval V α) : Prop :=
  ∀ before outcome, less.run before = some outcome → more.run before = some outcome

theorem below_refl (action : Eval V α) : action.Below action := by
  intro before outcome ends
  exact ends

theorem below_trans {first second third : Eval V α} (low : first.Below second)
    (high : second.Below third) : first.Below third := by
  intro before outcome ends
  exact high before outcome (low before outcome ends)

theorem below_bind {less more : Eval V α} {next further : α → Eval V β} (first : less.Below more)
    (rest : ∀ value, (next value).Below (further value)) :
    (less >>= next).Below (more >>= further) := by
  intro before outcome ends
  rcases run_bind_cases ends with ⟨value, later, started, ended⟩ | ⟨error, later, started, rfl⟩
  · rw [run_bind_ok (first before _ started)]
    exact rest value later outcome ended
  · exact run_bind_error (first before _ started) further

theorem below_require {less more : Eval V (Option α)} (pos : Nat) (below : less.Below more) :
    (require pos less).Below (require pos more) :=
  below_bind below fun _ => below_refl _

theorem below_inFrame {less more : Eval V α} (below : less.Below more) :
    (inFrame less).Below (inFrame more) := by
  rintro before ⟨result, after⟩ ends
  rcases run_inFrame_cases ends with ⟨later, started, rfl⟩
  exact run_inFrame (below _ _ started)

end Eval

variable {V α : Type} [Arithmetic V]

def Invoke.Below (less more : Invoke V) : Prop :=
  ∀ definition values, (less definition values).Below (more definition values)

variable {less more : Invoke V}

mutual

theorem Expr.eval_below (calls : less.Below more) : (expr : Expr) → (expr.eval less).Below (expr.eval more)
  | .number .. => by
      simp only [Expr.eval]
      exact Eval.below_refl _
  | .name .. => by
      simp only [Expr.eval]
      exact Eval.below_refl _
  | .negate operand pos => by
      simp only [Expr.eval]
      exact Eval.below_bind (Eval.below_require _ (operand.eval_below calls)) fun _ => Eval.below_refl _
  | .chain first links => by
      simp only [Expr.eval]
      apply Eval.below_bind (Eval.below_require _ (first.eval_below calls))
      intro value
      exact Eval.below_bind (evalLinks_below calls value links) fun _ => Eval.below_refl _
  | .call name arguments pos => by
      simp only [Expr.eval]
      apply Eval.below_bind (Eval.below_refl _)
      intro definition
      apply Eval.below_bind (Eval.below_refl _)
      intro _
      exact Eval.below_bind (evalArguments_below calls arguments) (calls definition)

theorem evalLinks_below (calls : less.Below more) (value : V) : (links : List Link) →
    (evalLinks less value links).Below (evalLinks more value links)
  | [] => by
      simp only [evalLinks]
      exact Eval.below_refl _
  | ⟨op, operand, pos⟩ :: links => by
      simp only [evalLinks]
      apply Eval.below_bind (Eval.below_require _ (operand.eval_below calls))
      intro right
      exact Eval.below_bind (Eval.below_refl _) fun result => evalLinks_below calls result links

theorem evalArguments_below (calls : less.Below more) : (arguments : List Expr) →
    (evalArguments less arguments).Below (evalArguments more arguments)
  | [] => by
      simp only [evalArguments]
      exact Eval.below_refl _
  | argument :: arguments => by
      simp only [evalArguments]
      apply Eval.below_bind (Eval.below_require _ (argument.eval_below calls))
      intro value
      exact Eval.below_bind (evalArguments_below calls arguments) fun _ => Eval.below_refl _

end

theorem Expr.value_below (calls : less.Below more) (expr : Expr) :
    (expr.value less).Below (expr.value more) :=
  Eval.below_require _ (expr.eval_below calls)

mutual

theorem Statement.eval_below (calls : less.Below more) : (statement : Statement) →
    (statement.eval less).Below (statement.eval more)
  | .assign name declared value pos => by
      simp only [Statement.eval]
      exact Eval.below_bind (value.value_below calls) fun _ => Eval.below_refl _
  | .define definition => by
      simp only [Statement.eval]
      exact Eval.below_refl _
  | .block body => by
      simp only [Statement.eval]
      exact body.eval_below calls
  | .ifThen condition consequence pos => by
      simp only [Statement.eval]
      apply Eval.below_bind (condition.value_below calls)
      intro value
      split
      · exact consequence.eval_below calls
      · exact Eval.below_refl _
  | .ifElse condition consequence alternative pos => by
      simp only [Statement.eval]
      apply Eval.below_bind (condition.value_below calls)
      intro value
      split
      · exact consequence.eval_below calls
      · exact alternative.eval_below calls
  | .print expr pos => by
      simp only [Statement.eval]
      exact Eval.below_bind (expr.value_below calls) fun _ => Eval.below_refl _
  | .reset pos => by
      simp only [Statement.eval]
      exact Eval.below_refl _
  | .expression expr => by
      simp only [Statement.eval]
      exact expr.eval_below calls

theorem Block.eval_below (calls : less.Below more) :
    (body : Block) → (body.eval less).Below (body.eval more)
  | ⟨statements, pos⟩ => by
      simp only [Block.eval]
      exact Eval.below_inFrame (evalStatements_below calls none statements)

theorem evalStatements_below (calls : less.Below more) (last : Option V) : (statements : List Statement) →
    (evalStatements less last statements).Below (evalStatements more last statements)
  | [] => by
      simp only [evalStatements]
      exact Eval.below_refl _
  | statement :: statements => by
      simp only [evalStatements]
      exact Eval.below_bind (statement.eval_below calls) fun value =>
        evalStatements_below calls value statements

end

theorem invoke_below_succ (depth : Nat) :
    (invoke depth : Invoke V).Below (invoke (depth + 1)) := by
  induction depth with
  | zero =>
    intro definition values before outcome ends
    cases ends
  | succ depth ih =>
    intro definition values
    apply Eval.below_inFrame
    exact Eval.below_bind (Eval.below_refl _) fun _ => evalStatements_below ih none _

theorem invoke_below {depth depth' : Nat} (le : depth ≤ depth') :
    (invoke depth : Invoke V).Below (invoke depth') := by
  induction le with
  | refl => exact fun _ _ => Eval.below_refl _
  | step _ ih =>
    intro definition values
    exact Eval.below_trans (ih definition values) (invoke_below_succ _ definition values)

/-- An action comes to an outcome if it does so when enough calls may be open. -/
def Eval.Ends (action : Invoke V → Eval V α) (before : Session V) (result : Except EvalError α)
    (after : Session V) : Prop :=
  ∃ depth, (action (invoke depth)).run before = some (result, after)

theorem Eval.Ends.unique {action : Invoke V → Eval V α}
    (grows : ∀ {less more : Invoke V}, less.Below more → (action less).Below (action more))
    {before after after' : Session V} {result result' : Except EvalError α}
    (ends : Ends action before result after) (ends' : Ends action before result' after') :
    result = result' ∧ after = after' := by
  rcases ends with ⟨depth, reached⟩
  rcases ends' with ⟨depth', reached'⟩
  have first := grows (invoke_below (Nat.le_max_left depth depth')) before _ reached
  have second := grows (invoke_below (Nat.le_max_right depth depth')) before _ reached'
  rw [first] at second
  cases second
  exact ⟨rfl, rfl⟩

theorem evalStatements_ends_unique {statements : List Statement} {before after after' : Session V}
    {result result' : Except EvalError (Option V)}
    (ends : Eval.Ends (evalStatements · none statements) before result after)
    (ends' : Eval.Ends (evalStatements · none statements) before result' after') :
    result = result' ∧ after = after' :=
  ends.unique (fun calls => evalStatements_below calls none statements) ends'

/-- What programs come to that are run one after the other in a session. A program that fails does
not keep the next one from running. -/
inductive Runs : Session V → List Program → List (Except EvalError (Option V) × Session V) → Prop
  | nil (session : Session V) : Runs session [] []
  | cons {before after : Session V} {program : Program} {result : Except EvalError (Option V)}
      {programs : List Program} {outcomes : List (Except EvalError (Option V) × Session V)}
      (first : Eval.Ends (evalStatements · none program) before result after)
      (rest : Runs after programs outcomes) :
      Runs before (program :: programs) ((result, after) :: outcomes)

end Calculator

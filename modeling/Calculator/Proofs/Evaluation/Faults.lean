import Calculator.Evaluation

/-!
Which faults a run may end in. A condition that holds of the faults of names and missing values, and
of those that the operations on numbers may have, holds of every fault in which a run ends.
-/

namespace Calculator

variable {V α β : Type} {admitted : Fault → Prop}

def Admits (admitted : Fault → Prop) (operation : Except Fault α) : Prop :=
  ∀ fault, operation = .error fault → admitted fault

theorem admits_ok (value : α) : Admits admitted (.ok value : Except Fault α) := by
  intro fault failed
  cases failed

theorem admits_error {fault : Fault} (own : admitted fault) :
    Admits admitted (.error fault : Except Fault α) := by
  intro other failed
  cases failed
  exact own

theorem Admits.bind {operation : Except Fault α} {next : α → Except Fault β}
    (first : Admits admitted operation)
    (rest : ∀ value, operation = .ok value → Admits admitted (next value)) :
    Admits admitted (operation >>= next) := by
  cases operation with
  | ok value => exact rest value rfl
  | error fault => exact admits_error (first fault rfl)

namespace Eval

def FailsWith (admitted : Fault → Prop) (action : Eval V α) : Prop :=
  ∀ before error after, action.run before = some (.error error, after) → admitted error.fault

theorem failsWith_pure (value : α) : (pure value : Eval V α).FailsWith admitted := by
  intro before error after ends
  cases ends

theorem failsWith_fail {fault : Fault} (own : admitted fault) (pos : Nat) :
    (fail fault pos : Eval V α).FailsWith admitted := by
  intro before error after ends
  cases ends
  exact own

theorem failsWith_ofExcept (pos : Nat) {operation : Except Fault α}
    (admits : Admits admitted operation) :
    (ofExcept pos operation : Eval V α).FailsWith admitted := by
  cases operation with
  | ok value => exact failsWith_pure value
  | error fault => exact failsWith_fail (admits fault rfl) pos

theorem failsWith_modifyScopes (change : Scopes V → Scopes V) :
    (modifyScopes change).FailsWith admitted := by
  intro before error after ends
  cases ends

theorem failsWith_emit (value : V) : (emit value).FailsWith admitted := by
  intro before error after ends
  cases ends

theorem failsWith_bind {action : Eval V α} {next : α → Eval V β}
    (first : action.FailsWith admitted) (rest : ∀ value, (next value).FailsWith admitted) :
    (action >>= next).FailsWith admitted := by
  intro before error after ends
  obtain ⟨value, later, _, ended⟩ | ⟨other, later, failed, same⟩ := run_bind_cases ends
  · exact rest value later error after ended
  · cases same
    exact first before error after failed

theorem failsWith_require (missing : admitted .noValue) (pos : Nat) {action : Eval V (Option α)}
    (fails : action.FailsWith admitted) : (require pos action).FailsWith admitted := by
  apply failsWith_bind fails
  intro value
  cases value with
  | none => exact failsWith_fail missing pos
  | some value => exact failsWith_pure value

theorem failsWith_inFrame {action : Eval V α} (fails : action.FailsWith admitted) :
    (inFrame action).FailsWith admitted := by
  intro before error after ends
  obtain ⟨later, inside, _⟩ := run_inFrame_cases ends
  exact fails _ error later inside

end Eval

variable [Arithmetic V]

/-- The condition holds of the faults that running has of itself, and of those of the operations on
admits. -/
structure AdmitsRuns (V : Type) [Arithmetic V] (admitted : Fault → Prop) : Prop where
  unbound : ∀ name, admitted (.unbound name)
  unknownFunction : ∀ name, admitted (.unknownFunction name)
  notAFunction : ∀ name, admitted (.notAFunction name)
  notAValue : ∀ name, admitted (.notAValue name)
  argumentCount : ∀ name expected found, admitted (.argumentCount name expected found)
  noValue : admitted .noValue
  ofLiteral : ∀ literal fixed,
    Admits admitted (Arithmetic.ofLiteral literal fixed : Except Fault V)
  negate : ∀ value : V, Admits admitted (Arithmetic.negate value)
  apply : ∀ (op : BinaryOp) (left right : V), Admits admitted (Arithmetic.apply op left right)
  store : ∀ (name : String) (declared : Option NumberType) (previous : Option V) (value : V),
    Admits admitted (Arithmetic.store name declared previous value)

section Names

variable (admits : AdmitsRuns V admitted)
include admits

theorem valueOf_failsWith (name : String) (pos : Nat) :
    (valueOf name pos : Eval V V).FailsWith admitted := by
  intro before error after ends
  rw [run_valueOf] at ends
  split at ends
  · cases ends
  · cases ends
    exact admits.notAValue name
  · cases ends
    exact admits.unbound name

theorem functionOf_failsWith (name : String) (pos : Nat) :
    (functionOf name pos : Eval V Definition).FailsWith admitted := by
  intro before error after ends
  rw [run_functionOf] at ends
  split at ends
  · cases ends
  · cases ends
    exact admits.notAFunction name
  · cases ends
    exact admits.unknownFunction name

theorem checkCount_failsWith (definition : Definition) (name : String) (found pos : Nat) :
    (checkCount definition name found pos : Eval V Unit).FailsWith admitted := by
  unfold checkCount
  split
  · exact Eval.failsWith_pure ()
  · exact Eval.failsWith_fail (admits.argumentCount name _ found) pos

end Names

variable {call : Invoke V}

def Invoke.FailsWith (admitted : Fault → Prop) (call : Invoke V) : Prop :=
  ∀ definition values, (call definition values).FailsWith admitted

/-! Where calls fail with such faults only, expressions and statements do so too. -/

mutual

theorem Expr.eval_failsWith (admits : AdmitsRuns V admitted)
    (calls : call.FailsWith admitted) : (expr : Expr) → (expr.eval call).FailsWith admitted
  | .number literal fixed pos => by
      simp only [Expr.eval]
      apply Eval.failsWith_bind (Eval.failsWith_ofExcept pos (admits.ofLiteral literal fixed))
      exact fun _ => Eval.failsWith_pure _
  | .name name pos => by
      simp only [Expr.eval]
      exact Eval.failsWith_bind (valueOf_failsWith admits name pos) fun _ => Eval.failsWith_pure _
  | .negate operand pos => by
      simp only [Expr.eval]
      apply Eval.failsWith_bind
        (Eval.failsWith_require admits.noValue _ (operand.eval_failsWith admits calls))
      intro value
      apply Eval.failsWith_bind (Eval.failsWith_ofExcept pos (admits.negate value))
      exact fun _ => Eval.failsWith_pure _
  | .chain first links => by
      simp only [Expr.eval]
      apply Eval.failsWith_bind
        (Eval.failsWith_require admits.noValue _ (first.eval_failsWith admits calls))
      intro value
      apply Eval.failsWith_bind (evalLinks_failsWith admits calls value links)
      exact fun _ => Eval.failsWith_pure _
  | .call name arguments pos => by
      simp only [Expr.eval]
      apply Eval.failsWith_bind (functionOf_failsWith admits name pos)
      intro definition
      apply Eval.failsWith_bind (checkCount_failsWith admits definition name _ pos)
      intro _
      exact Eval.failsWith_bind (evalArguments_failsWith admits calls arguments)
        (calls definition)

theorem evalLinks_failsWith (admits : AdmitsRuns V admitted)
    (calls : call.FailsWith admitted) (value : V) :
    (links : List Link) → (evalLinks call value links).FailsWith admitted
  | [] => by
      simp only [evalLinks]
      exact Eval.failsWith_pure value
  | ⟨op, operand, pos⟩ :: links => by
      simp only [evalLinks]
      apply Eval.failsWith_bind
        (Eval.failsWith_require admits.noValue _ (operand.eval_failsWith admits calls))
      intro right
      apply Eval.failsWith_bind (Eval.failsWith_ofExcept pos (admits.apply op value right))
      exact fun result => evalLinks_failsWith admits calls result links

theorem evalArguments_failsWith (admits : AdmitsRuns V admitted)
    (calls : call.FailsWith admitted) :
    (arguments : List Expr) → (evalArguments call arguments).FailsWith admitted
  | [] => by
      simp only [evalArguments]
      exact Eval.failsWith_pure []
  | argument :: arguments => by
      simp only [evalArguments]
      apply Eval.failsWith_bind
        (Eval.failsWith_require admits.noValue _ (argument.eval_failsWith admits calls))
      intro value
      apply Eval.failsWith_bind (evalArguments_failsWith admits calls arguments)
      exact fun _ => Eval.failsWith_pure _

end

theorem Expr.value_failsWith (admits : AdmitsRuns V admitted)
    (calls : call.FailsWith admitted) (expr : Expr) : (expr.value call).FailsWith admitted :=
  Eval.failsWith_require admits.noValue _ (expr.eval_failsWith admits calls)

theorem assign_failsWith (admits : AdmitsRuns V admitted) (name : String)
    (declared : Option NumberType) (value : V) (pos : Nat) :
    (assign name declared value pos).FailsWith admitted := by
  intro before error after ends
  rw [run_assign] at ends
  split at ends
  · cases ends
  · next fault failed =>
    cases ends
    exact admits.store name declared _ value fault failed

mutual

theorem Statement.eval_failsWith (admits : AdmitsRuns V admitted)
    (calls : call.FailsWith admitted) :
    (statement : Statement) → (statement.eval call).FailsWith admitted
  | .assign name declared value pos => by
      simp only [Statement.eval]
      apply Eval.failsWith_bind (value.value_failsWith admits calls)
      exact fun value => assign_failsWith admits name declared value pos
  | .define definition => by
      simp only [Statement.eval]
      exact Eval.failsWith_bind (Eval.failsWith_modifyScopes _) fun _ => Eval.failsWith_pure none
  | .block ⟨statements, pos⟩ => by
      simp only [Statement.eval, Block.eval]
      exact Eval.failsWith_inFrame (evalStatements_failsWith admits calls none statements)
  | .ifThen condition consequence pos => by
      simp only [Statement.eval]
      apply Eval.failsWith_bind (condition.value_failsWith admits calls)
      intro value
      split
      · exact consequence.eval_failsWith admits calls
      · exact Eval.failsWith_pure none
  | .ifElse condition consequence alternative pos => by
      simp only [Statement.eval]
      apply Eval.failsWith_bind (condition.value_failsWith admits calls)
      intro value
      split
      · exact consequence.eval_failsWith admits calls
      · exact alternative.eval_failsWith admits calls
  | .print expr pos => by
      simp only [Statement.eval]
      apply Eval.failsWith_bind (expr.value_failsWith admits calls)
      intro value
      exact Eval.failsWith_bind (Eval.failsWith_emit value) fun _ => Eval.failsWith_pure _
  | .reset pos => by
      simp only [Statement.eval]
      exact Eval.failsWith_bind (Eval.failsWith_modifyScopes _) fun _ => Eval.failsWith_pure none
  | .expression expr => by
      simp only [Statement.eval]
      exact expr.eval_failsWith admits calls

theorem evalStatements_failsWith (admits : AdmitsRuns V admitted)
    (calls : call.FailsWith admitted) (last : Option V) :
    (statements : List Statement) → (evalStatements call last statements).FailsWith admitted
  | [] => by
      simp only [evalStatements]
      exact Eval.failsWith_pure last
  | statement :: statements => by
      simp only [evalStatements]
      apply Eval.failsWith_bind (statement.eval_failsWith admits calls)
      exact fun value => evalStatements_failsWith admits calls value statements

end

theorem invoke_failsWith (admits : AdmitsRuns V admitted)
    (depth : Nat) : (invoke depth : Invoke V).FailsWith admitted := by
  -- A body makes its calls with one open call less, so the hypothesis covers them.
  induction depth with
  | zero =>
    intro definition values before error after ends
    cases ends
  | succ depth ih =>
    intro definition values
    have binds : (bindParams definition.params values).FailsWith admitted :=
      Eval.failsWith_modifyScopes _
    have body := evalStatements_failsWith admits ih none definition.body.statements
    exact Eval.failsWith_inFrame (Eval.failsWith_bind binds fun _ => body)

theorem Program.eval_failsWith (admits : AdmitsRuns V admitted)
    (depth : Nat) (program : Program) : (program.eval depth : Eval V _).FailsWith admitted :=
  evalStatements_failsWith admits (invoke_failsWith admits depth) none program

end Calculator

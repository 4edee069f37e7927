import Calculator.Evaluation
import Mathlib.Order.Defs.Unbundled

/-!
What every evaluation keeps. A relation between sessions that is reflexive and transitive holds from
the beginning of an evaluation to its end if the few actions that touch a session keep it.
-/

namespace Calculator

variable {V α β : Type}

/-- Every outcome of an action stands in a relation to where the action began, failures included. -/
def Eval.Keeps (step : Session V → Session V → Prop) (action : Eval V α) : Prop :=
  ∀ before result after, action.run before = some (result, after) → step before after

def Invoke.Keeps (step : Session V → Session V → Prop) (call : Invoke V) : Prop :=
  ∀ definition values, (call definition values).Keeps step

namespace Eval

theorem keeps_mono {step other : Session V → Session V → Prop}
    (weaker : ∀ before after, step before after → other before after) {action : Eval V α}
    (kept : action.Keeps step) : action.Keeps other := by
  intro before result after ends
  exact weaker before after (kept before result after ends)

variable {step : Session V → Session V → Prop} [IsPreorder (Session V) step]

theorem keeps_of_still {action : Eval V α}
    (still : ∀ before, ∃ result, action.run before = some (result, before)) :
    action.Keeps step := by
  intro before result after ends
  rcases still before with ⟨result', same⟩
  rw [same] at ends
  cases ends
  exact refl_of step before

theorem keeps_pure (value : α) : (pure value : Eval V α).Keeps step :=
  keeps_of_still fun _ => ⟨_, rfl⟩

theorem keeps_fail (fault : Fault) (pos : Nat) : (fail fault pos : Eval V α).Keeps step :=
  keeps_of_still fun _ => ⟨_, rfl⟩

theorem keeps_ofExcept (pos : Nat) (result : Except Fault α) :
    (ofExcept pos result : Eval V α).Keeps step :=
  keeps_of_still fun before => ⟨_, run_ofExcept pos result before⟩

theorem keeps_scopes : (scopes : Eval V (Scopes V)).Keeps step :=
  keeps_of_still fun _ => ⟨_, rfl⟩

theorem keeps_bind {action : Eval V α} {next : α → Eval V β} (first : action.Keeps step)
    (rest : ∀ value, (next value).Keeps step) : (action >>= next).Keeps step := by
  intro before result after ends
  rcases run_bind_cases ends with ⟨value, later, started, ended⟩ | ⟨error, later, started, same⟩
  · have begun := first before _ later started
    exact trans_of step begun (rest value later result after ended)
  · cases same
    exact first before _ after started

theorem keeps_require (pos : Nat) {action : Eval V (Option α)} (kept : action.Keeps step) :
    (require pos action).Keeps step := by
  refine keeps_bind kept ?_
  intro value
  cases value with
  | none => exact keeps_fail _ pos
  | some value => exact keeps_pure value

end Eval

section Preorders

variable {step : Session V → Session V → Prop} [IsPreorder (Session V) step]

theorem checkCount_keeps (definition : Definition) (name : String) (found pos : Nat) :
    (checkCount definition name found pos : Eval V Unit).Keeps step := by
  unfold checkCount
  split
  · exact Eval.keeps_pure ()
  · exact Eval.keeps_fail _ pos

theorem valueOf_keeps (name : String) (pos : Nat) : (valueOf name pos : Eval V V).Keeps step := by
  refine Eval.keeps_bind Eval.keeps_scopes ?_
  intro scopes
  refine Eval.keeps_bind (Eval.keeps_ofExcept pos _) ?_
  intro binding
  cases binding with
  | number value => exact Eval.keeps_pure value
  | function definition => exact Eval.keeps_fail _ pos

theorem functionOf_keeps (name : String) (pos : Nat) :
    (functionOf name pos : Eval V Definition).Keeps step := by
  refine Eval.keeps_bind Eval.keeps_scopes ?_
  intro scopes
  split
  · exact Eval.keeps_pure _
  · exact Eval.keeps_fail _ pos
  · exact Eval.keeps_fail _ pos

variable [Arithmetic V] {call : Invoke V}

/-! Expressions touch a session through the calls they make and in no other way. -/

mutual

theorem Expr.eval_keeps (calls : call.Keeps step) :
    (expr : Expr) → (expr.eval call).Keeps step
  | .number literal fixed pos => by
      simp only [Expr.eval]
      exact Eval.keeps_bind (Eval.keeps_ofExcept pos _) fun _ => Eval.keeps_pure _
  | .name name pos => by
      simp only [Expr.eval]
      exact Eval.keeps_bind (valueOf_keeps name pos) fun _ => Eval.keeps_pure _
  | .negate operand pos => by
      simp only [Expr.eval]
      refine Eval.keeps_bind (Eval.keeps_require _ (operand.eval_keeps calls)) ?_
      intro value
      exact Eval.keeps_bind (Eval.keeps_ofExcept pos _) fun _ => Eval.keeps_pure _
  | .chain first links => by
      simp only [Expr.eval]
      refine Eval.keeps_bind (Eval.keeps_require _ (first.eval_keeps calls)) ?_
      intro value
      exact Eval.keeps_bind (evalLinks_keeps calls value links) fun _ => Eval.keeps_pure _
  | .call name arguments pos => by
      simp only [Expr.eval]
      refine Eval.keeps_bind (functionOf_keeps name pos) ?_
      intro definition
      refine Eval.keeps_bind (checkCount_keeps definition name _ pos) ?_
      intro _
      exact Eval.keeps_bind (evalArguments_keeps calls arguments) (calls definition)

theorem evalLinks_keeps (calls : call.Keeps step)
    (value : V) : (links : List Link) → (evalLinks call value links).Keeps step
  | [] => by
      simp only [evalLinks]
      exact Eval.keeps_pure value
  | ⟨op, operand, pos⟩ :: links => by
      simp only [evalLinks]
      refine Eval.keeps_bind (Eval.keeps_require _ (operand.eval_keeps calls)) ?_
      intro right
      refine Eval.keeps_bind (Eval.keeps_ofExcept pos _) ?_
      intro result
      exact evalLinks_keeps calls result links

theorem evalArguments_keeps (calls : call.Keeps step) :
    (arguments : List Expr) → (evalArguments call arguments).Keeps step
  | [] => by
      simp only [evalArguments]
      exact Eval.keeps_pure []
  | argument :: arguments => by
      simp only [evalArguments]
      refine Eval.keeps_bind (Eval.keeps_require _ (argument.eval_keeps calls)) ?_
      intro value
      exact Eval.keeps_bind (evalArguments_keeps calls arguments) fun _ => Eval.keeps_pure _

end

theorem Expr.value_keeps (calls : call.Keeps step)
    (expr : Expr) : (expr.value call).Keeps step :=
  Eval.keeps_require _ (expr.eval_keeps calls)

end Preorders

/-- What a preorder has to allow for every statement to keep it. -/
structure Allows [Arithmetic V] (call : Invoke V) (step : Session V → Session V → Prop) : Prop where
  exprs : ∀ expr : Expr, (expr.eval call).Keeps step
  assigns : ∀ name declared value pos, (assign name declared value pos : Eval V _).Keeps step
  defines : ∀ definition : Definition,
    (Eval.modifyScopes (V := V) (·.define definition.name (.function definition))).Keeps step
  clears : (Eval.modifyScopes (V := V) Scopes.clear).Keeps step
  emits : ∀ value : V, (Eval.emit value).Keeps step
  frames : ∀ action : Eval V (Option V), action.Keeps step → (Eval.inFrame action).Keeps step

variable [Arithmetic V] {call : Invoke V} {step : Session V → Session V → Prop}

variable [IsPreorder (Session V) step]

theorem Allows.value (allows : Allows call step) (expr : Expr) : (expr.value call).Keeps step :=
  Eval.keeps_require _ (allows.exprs expr)

mutual

theorem Statement.eval_keeps (allows : Allows call step) :
    (statement : Statement) → (statement.eval call).Keeps step
  | .assign name declared value pos => by
      simp only [Statement.eval]
      exact Eval.keeps_bind (allows.value value) fun value => allows.assigns name declared value pos
  | .define definition => by
      simp only [Statement.eval]
      exact Eval.keeps_bind (allows.defines definition) fun _ => Eval.keeps_pure none
  | .block ⟨statements, pos⟩ => by
      simp only [Statement.eval, Block.eval]
      exact allows.frames _ (evalStatements_keeps allows none statements)
  | .ifThen condition consequence pos => by
      simp only [Statement.eval]
      refine Eval.keeps_bind (allows.value condition) ?_
      intro value
      split
      · exact consequence.eval_keeps allows
      · exact Eval.keeps_pure none
  | .ifElse condition consequence alternative pos => by
      simp only [Statement.eval]
      refine Eval.keeps_bind (allows.value condition) ?_
      intro value
      split
      · exact consequence.eval_keeps allows
      · exact alternative.eval_keeps allows
  | .print expr pos => by
      simp only [Statement.eval]
      refine Eval.keeps_bind (allows.value expr) ?_
      intro value
      exact Eval.keeps_bind (allows.emits value) fun _ => Eval.keeps_pure _
  | .reset pos => by
      simp only [Statement.eval]
      exact Eval.keeps_bind allows.clears fun _ => Eval.keeps_pure none
  | .expression expr => by
      simp only [Statement.eval]
      exact allows.exprs expr

theorem evalStatements_keeps (allows : Allows call step) (last : Option V) :
    (statements : List Statement) → (evalStatements call last statements).Keeps step
  | [] => by
      simp only [evalStatements]
      exact Eval.keeps_pure last
  | statement :: statements => by
      simp only [evalStatements]
      exact Eval.keeps_bind (statement.eval_keeps allows) fun value =>
        evalStatements_keeps allows value statements

end

end Calculator

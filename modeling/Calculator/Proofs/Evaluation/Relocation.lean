import Calculator.Proofs.Evaluation.Agreement
import Calculator.Proofs.Syntax.Places

/-!
Running programs does not look at positions. Where parts of a program stand at other places, and so
do functions that are bound, each of them moved in one of the allowed ways, the run ends in the same
way: with the same value or the same fault, the same printed numbers, and the same bindings up to
such moves.
-/

namespace Calculator

variable {V α β γ δ : Type} {moves : (Nat → Nat) → Prop}

/-- Numbers stand for themselves, and functions for themselves at other places. -/
def Likeness.moving (moves : (Nat → Nat) → Prop) : Likeness V V :=
  ⟨Eq, fun f g => ∃ move, moves move ∧ g = f.relocate move⟩

inductive Except.Moved (moves : (Nat → Nat) → Prop) (value : α → β → Prop) :
    Except EvalError α → Except EvalError β → Prop
  | ok {x : α} {y : β} (same : value x y) : Moved moves value (.ok x) (.ok y)
  | error (fault : Fault) (pos : Nat) {move : Nat → Nat} (allowed : moves move) :
      Moved moves value (.error ⟨fault, pos⟩) (.error ⟨fault, move pos⟩)

/-- What two runs come to if they differ in nothing but moved places. -/
structure MovedOutcome (moves : (Nat → Nat) → Prop) (value : α → β → Prop)
    (outcome : Except EvalError α × Session V) (outcome' : Except EvalError β × Session V) :
    Prop where
  result : Except.Moved moves value outcome.1 outcome'.1
  session : Session.Alike (.moving moves) outcome.2 outcome'.2

namespace Eval

def Moves (moves : (Nat → Nat) → Prop) (value : α → β → Prop) (action : Eval V α)
    (action' : Eval V β) : Prop :=
  ∀ session session', Session.Alike (.moving moves) session session' →
    Option.Rel (MovedOutcome moves value) (action.run session) (action'.run session')

variable {move : Nat → Nat} {value : α → β → Prop} {result : γ → δ → Prop} {action : Eval V α}
  {action' : Eval V β}

theorem moves_pure {x : α} {y : β} (same : value x y) :
    Moves moves value (pure x : Eval V α) (pure y) := by
  intro session session' alike
  exact .some ⟨.ok same, alike⟩

theorem moves_bind {next : α → Eval V γ} {next' : β → Eval V δ}
    (first : Moves moves value action action')
    (rest : ∀ x y, value x y → Moves moves result (next x) (next' y)) :
    Moves moves result (action >>= next) (action' >>= next') := by
  intro session session' alike
  rw [run_bind, run_bind]
  have begun := first session session' alike
  generalize action.run session = reached at begun ⊢
  generalize action'.run session' = reached' at begun ⊢
  cases begun with
  | none => exact .none
  | @some outcome outcome' related =>
    rcases outcome with ⟨reached, later⟩
    rcases outcome' with ⟨reached', later'⟩
    rcases related with ⟨agree, still⟩
    cases agree with
    | ok same => exact rest _ _ same later later' still
    | error fault pos allowed => exact .some ⟨.error fault pos allowed, still⟩

theorem moves_fail (allowed : moves move) (fault : Fault) (pos : Nat) :
    Moves moves value (fail fault pos : Eval V α) (fail fault (move pos)) := by
  intro session session' alike
  exact .some ⟨.error fault pos allowed, alike⟩

theorem moves_ofExcept (allowed : moves move) (pos : Nat) (operation : Except Fault α) :
    Moves moves Eq (ofExcept pos operation : Eval V α) (ofExcept (move pos) operation) := by
  cases operation with
  | ok value => exact moves_pure rfl
  | error fault => exact moves_fail allowed fault pos

theorem moves_require (allowed : moves move) (pos : Nat) {action action' : Eval V (Option α)}
    (first : Moves moves Eq action action') :
    Moves moves Eq (require pos action) (require (move pos) action') := by
  apply moves_bind first
  rintro x _ rfl
  cases x with
  | none => exact moves_fail allowed .noValue pos
  | some value => exact moves_pure rfl

theorem moves_scopes : Moves moves (Scopes.Alike (.moving moves)) (scopes : Eval V (Scopes V))
    scopes := by
  intro session session' alike
  exact .some ⟨.ok alike.scopes, alike⟩

theorem moves_modifyScopes {change change' : Scopes V → Scopes V}
    (agree : ∀ scopes scopes', Scopes.Alike (.moving moves) scopes scopes' →
      Scopes.Alike (.moving moves) (change scopes) (change' scopes')) :
    Moves moves Eq (modifyScopes change) (modifyScopes change') := by
  intro session session' alike
  exact .some ⟨.ok rfl, agree _ _ alike.scopes, alike.printed⟩

theorem moves_emit (x : V) : Moves moves Eq (emit x) (emit x) := by
  intro session session' alike
  refine .some ⟨.ok rfl, alike.scopes, ?_⟩
  simpa using List.rel_append alike.printed (.cons rfl .nil)

theorem moves_inFrame (first : Moves moves value action action') :
    Moves moves value (inFrame action) (inFrame action') := by
  intro session session' alike
  have inside := first { session with scopes := session.scopes.push }
    { session' with scopes := session'.scopes.push } ⟨alike.scopes.push, alike.printed⟩
  unfold run at inside
  unfold run inFrame
  generalize action _ = reached at inside ⊢
  generalize action' _ = reached' at inside ⊢
  cases inside with
  | none => exact .none
  | some related => exact .some ⟨related.result, related.session.scopes.pop, related.session.printed⟩

theorem moves_ite {condition : Prop} [Decidable condition] {left right : Eval V α}
    {left' right' : Eval V β} (first : Moves moves value left left')
    (second : Moves moves value right right') :
    Moves moves value (if condition then left else right)
      (if condition then left' else right') := by
  split
  · exact first
  · exact second

end Eval

open Eval

section Lookups

variable {move : Nat → Nat} (allowed : moves move)

include allowed

theorem valueOf_moves (name : String) (pos : Nat) :
    Moves moves Eq (valueOf name pos : Eval V V) (valueOf name (move pos)) := by
  apply moves_bind moves_scopes
  intro scopes scopes' alike
  have found := alike.find? name
  simp only [Scopes.lookup]
  generalize scopes.find? name = binding at found ⊢
  generalize scopes'.find? name = binding' at found ⊢
  cases found with
  | none => exact moves_fail allowed _ pos
  | some bound =>
    cases bound with
    | number same => exact moves_pure same
    | function same => exact moves_fail allowed _ pos

theorem functionOf_moves (name : String) (pos : Nat) :
    Moves moves (Likeness.moving (V := V) moves).function (functionOf name pos : Eval V Definition)
      (functionOf name (move pos)) := by
  apply moves_bind moves_scopes
  intro scopes scopes' alike
  have found := alike.find? name
  generalize scopes.find? name = binding at found ⊢
  generalize scopes'.find? name = binding' at found ⊢
  cases found with
  | none => exact moves_fail allowed _ pos
  | some bound =>
    cases bound with
    | number same => exact moves_fail allowed _ pos
    | function same => exact moves_pure same

/-- The function may have been moved in another way than the call. -/
theorem checkCount_moves (definition : Definition) (other : Nat → Nat) (name : String)
    (found pos : Nat) :
    Moves moves Eq (checkCount definition name found pos : Eval V Unit)
      (checkCount (definition.relocate other) name found (move pos)) := by
  unfold checkCount
  rw [Definition.params_relocate]
  exact moves_ite (moves_pure rfl) (moves_fail allowed _ pos)

end Lookups

def Invoke.Moves (moves : (Nat → Nat) → Prop) (call call' : Invoke V) : Prop :=
  ∀ definition values move, moves move →
    Eval.Moves moves Eq (call definition values) (call' (definition.relocate move) values)

section Walk

variable [Arithmetic V] {call call' : Invoke V} {move : Nat → Nat}

mutual

theorem Expr.eval_moves (calls : Invoke.Moves moves call call') (allowed : moves move) :
    (expr : Expr) → Moves moves Eq (expr.eval call) ((expr.relocate move).eval call')
  | .number literal fixed pos => by
      simp only [Expr.relocate, Expr.eval]
      apply moves_bind (moves_ofExcept allowed pos _)
      rintro x _ rfl
      exact moves_pure rfl
  | .name name pos => by
      simp only [Expr.relocate, Expr.eval]
      apply moves_bind (valueOf_moves allowed name pos)
      rintro x _ rfl
      exact moves_pure rfl
  | .negate operand pos => by
      simp only [Expr.relocate, Expr.eval, Expr.pos_relocate]
      apply moves_bind (moves_require allowed _ (operand.eval_moves calls allowed))
      rintro x _ rfl
      apply moves_bind (moves_ofExcept allowed pos _)
      rintro x _ rfl
      exact moves_pure rfl
  | .chain first links => by
      simp only [Expr.relocate, Expr.eval, Expr.pos_relocate]
      apply moves_bind (moves_require allowed _ (first.eval_moves calls allowed))
      rintro x _ rfl
      apply moves_bind (evalLinks_moves calls allowed links x)
      rintro x _ rfl
      exact moves_pure rfl
  | .call name arguments pos => by
      simp only [Expr.relocate, Expr.eval, length_relocateExprs]
      apply moves_bind (functionOf_moves allowed name pos)
      rintro definition _ ⟨other, allowed', rfl⟩
      apply moves_bind (checkCount_moves allowed definition other name _ pos)
      intro _ _ _
      apply moves_bind (evalArguments_moves calls allowed arguments)
      rintro values _ rfl
      exact calls definition values other allowed'

theorem evalLinks_moves (calls : Invoke.Moves moves call call') (allowed : moves move) :
    (links : List Link) → (x : V) →
      Moves moves Eq (evalLinks call x links) (evalLinks call' x (relocateLinks move links))
  | [], x => by
      simp only [relocateLinks, evalLinks]
      exact moves_pure rfl
  | ⟨op, operand, pos⟩ :: links, x => by
      simp only [relocateLinks, evalLinks, Expr.pos_relocate]
      apply moves_bind (moves_require allowed _ (operand.eval_moves calls allowed))
      rintro y _ rfl
      apply moves_bind (moves_ofExcept allowed pos _)
      rintro x _ rfl
      exact evalLinks_moves calls allowed links x

theorem evalArguments_moves (calls : Invoke.Moves moves call call') (allowed : moves move) :
    (arguments : List Expr) →
      Moves moves Eq (evalArguments call arguments)
        (evalArguments call' (relocateExprs move arguments))
  | [] => by
      simp only [relocateExprs, evalArguments]
      exact moves_pure rfl
  | argument :: arguments => by
      simp only [relocateExprs, evalArguments, Expr.pos_relocate]
      apply moves_bind (moves_require allowed _ (argument.eval_moves calls allowed))
      rintro x _ rfl
      apply moves_bind (evalArguments_moves calls allowed arguments)
      rintro values _ rfl
      exact moves_pure rfl

end

theorem Expr.value_moves (calls : Invoke.Moves moves call call') (allowed : moves move)
    (expr : Expr) : Moves moves Eq (expr.value call) ((expr.relocate move).value call') := by
  simp only [Expr.value, Expr.pos_relocate]
  exact moves_require allowed _ (expr.eval_moves calls allowed)

theorem assign_moves (allowed : moves move) (name : String) (declared : Option NumberType) (x : V)
    (pos : Nat) :
    Moves moves Eq (assign name declared x pos) (assign name declared x (move pos)) := by
  apply moves_bind moves_scopes
  intro scopes scopes' alike
  have previous : (scopes.local? name).bind Binding.number? =
      (scopes'.local? name).bind Binding.number? := by
    have found := alike.local? name
    generalize scopes.local? name = binding at found ⊢
    generalize scopes'.local? name = binding' at found ⊢
    cases found with
    | none => rfl
    | some bound =>
      cases bound with
      | number same => exact congrArg some same
      | function same => rfl
  rw [previous]
  apply moves_bind (moves_ofExcept allowed pos _)
  rintro stored _ rfl
  refine moves_bind (moves_modifyScopes ?_) fun _ _ _ => moves_pure rfl
  intro scopes scopes' alike
  exact alike.define name (.number rfl)

mutual

theorem Statement.eval_moves (calls : Invoke.Moves moves call call') (allowed : moves move) :
    (statement : Statement) →
      Moves moves Eq (statement.eval call) ((statement.relocate move).eval call')
  | .assign name declared value pos => by
      simp only [Statement.relocate, Statement.eval]
      apply moves_bind (value.value_moves calls allowed)
      rintro x _ rfl
      exact assign_moves allowed name declared x pos
  | .define ⟨name, params, body, pos⟩ => by
      simp only [Statement.relocate, Statement.eval, Definition.relocate]
      refine moves_bind (moves_modifyScopes ?_) fun _ _ _ => moves_pure rfl
      intro scopes scopes' alike
      exact alike.define name (.function ⟨move, allowed, by rw [Definition.relocate]⟩)
  | .block ⟨statements, pos⟩ => by
      simp only [Statement.relocate, Block.relocate, Statement.eval, Block.eval]
      exact moves_inFrame (evalStatements_moves calls allowed statements none)
  | .ifThen condition consequence pos => by
      simp only [Statement.relocate, Statement.eval]
      apply moves_bind (condition.value_moves calls allowed)
      rintro x _ rfl
      exact moves_ite (consequence.eval_moves calls allowed) (moves_pure rfl)
  | .ifElse condition consequence alternative pos => by
      simp only [Statement.relocate, Statement.eval]
      apply moves_bind (condition.value_moves calls allowed)
      rintro x _ rfl
      exact moves_ite (consequence.eval_moves calls allowed)
        (alternative.eval_moves calls allowed)
  | .print expr pos => by
      simp only [Statement.relocate, Statement.eval]
      apply moves_bind (expr.value_moves calls allowed)
      rintro x _ rfl
      exact moves_bind (moves_emit x) fun _ _ _ => moves_pure rfl
  | .reset pos => by
      simp only [Statement.relocate, Statement.eval]
      exact moves_bind (moves_modifyScopes fun _ _ alike => alike.clear) fun _ _ _ =>
        moves_pure rfl
  | .expression expr => by
      simp only [Statement.relocate, Statement.eval]
      exact expr.eval_moves calls allowed

theorem evalStatements_moves (calls : Invoke.Moves moves call call') (allowed : moves move) :
    (statements : List Statement) → (last : Option V) →
      Moves moves Eq (evalStatements call last statements)
        (evalStatements call' last (relocateStatements move statements))
  | [], last => by
      simp only [relocateStatements, evalStatements]
      exact moves_pure rfl
  | statement :: statements, last => by
      simp only [relocateStatements, evalStatements]
      apply moves_bind (statement.eval_moves calls allowed)
      rintro last _ rfl
      exact evalStatements_moves calls allowed statements last

end

omit [Arithmetic V] in
theorem bindParams_moves (params : List String) (values : List V) :
    Moves moves Eq (bindParams params values) (bindParams params values) := by
  apply moves_modifyScopes
  intro scopes scopes' alike
  induction params.zip values generalizing scopes scopes' with
  | nil => exact alike
  | cons pair pairs ih => exact ih _ _ (alike.define pair.1 (.number rfl))

theorem invoke_moves (depth : Nat) :
    Invoke.Moves moves (invoke depth : Invoke V) (invoke depth) := by
  induction depth with
  | zero => exact fun _ _ _ _ _ _ _ => .none
  | succ depth ih =>
    rintro ⟨name, params, ⟨statements, _⟩, pos⟩ values move allowed
    simp only [invoke, Definition.relocate, Block.relocate]
    apply moves_inFrame
    apply moves_bind (bindParams_moves params values)
    intro _ _ _
    exact evalStatements_moves ih allowed statements none

end Walk

end Calculator

import Calculator.Proofs.Evaluation.Agreement
import Calculator.Proofs.Syntax.Flags

/-!
Two kinds of numbers under one evaluator. Where the operations on numbers correspond, the evaluation
of a program on integers agrees with that of its counterpart with other flags, at every bound on
the open calls.
-/

namespace Calculator

variable {V W : Type}

/-- The operations on numbers of one kind correspond to those of another, as far as programs on
integers use them. -/
structure Corresponds [Arithmetic V] [Arithmetic W] (number : V → W → Prop) : Prop where
  ofLiteral : ∀ n fixed fixed', Except.Agree number (Arithmetic.ofLiteral (.int n) fixed)
    (Arithmetic.ofLiteral (.int n) fixed')
  isTruthy : ∀ x y, number x y → Arithmetic.isTruthy x = Arithmetic.isTruthy y
  negate : ∀ x y, number x y → Except.Agree number (Arithmetic.negate x) (Arithmetic.negate y)
  apply : ∀ op x x' y y', number x y → number x' y' →
    Except.Agree number (Arithmetic.apply op x x') (Arithmetic.apply op y y')
  store : ∀ name declared previous previous' x y, declared ≠ some .float →
    Option.Rel number previous previous' → number x y →
      Except.Agree number (Arithmetic.store name declared previous x)
        (Arithmetic.store name declared previous' y)
  text : ∀ x y, number x y → Arithmetic.text x = Arithmetic.text y

/-- Functions stand for themselves with the flags of their literals changed. -/
def Likeness.reflagging (number : V → W → Prop) (change : Bool → Bool) : Likeness V W :=
  ⟨number, fun f g => f.isIntegral = true ∧ g = f.reflag change⟩

def Invoke.Agree (number : V → W → Prop) (change : Bool → Bool) (call : Invoke V)
    (call' : Invoke W) : Prop :=
  ∀ definition values values', definition.isIntegral = true → List.Forall₂ number values values' →
    Eval.Agree (.reflagging number change) (Option.Rel number) (call definition values)
      (call' (definition.reflag change) values')

section Lookups

variable {number : V → W → Prop} {change : Bool → Bool}

theorem valueOf_agree (name : String) (pos : Nat) :
    Eval.Agree (.reflagging number change) number (valueOf name pos) (valueOf name pos) := by
  apply Eval.agree_bind Eval.agree_scopes
  intro scopes scopes' alike
  have found := alike.find? name
  simp only [Scopes.lookup]
  generalize scopes.find? name = binding at found ⊢
  generalize scopes'.find? name = binding' at found ⊢
  cases found with
  | none => exact Eval.agree_fail _ pos
  | some bound =>
    cases bound with
    | number same => exact Eval.agree_pure same
    | function same => exact Eval.agree_fail _ pos

theorem functionOf_agree (name : String) (pos : Nat) :
    Eval.Agree (.reflagging number change) (Likeness.reflagging number change).function
      (functionOf name pos) (functionOf name pos) := by
  apply Eval.agree_bind Eval.agree_scopes
  intro scopes scopes' alike
  have found := alike.find? name
  generalize scopes.find? name = binding at found ⊢
  generalize scopes'.find? name = binding' at found ⊢
  cases found with
  | none => exact Eval.agree_fail _ pos
  | some bound =>
    cases bound with
    | number same => exact Eval.agree_fail _ pos
    | function same => exact Eval.agree_pure same

theorem checkCount_agree (definition : Definition) (name : String) (found pos : Nat) :
    Eval.Agree (.reflagging number change) (fun _ _ => True) (checkCount definition name found pos)
      (checkCount (definition.reflag change) name found pos) := by
  have params : (definition.reflag change).params = definition.params := by
    cases definition
    rfl
  unfold checkCount
  rw [params]
  split
  · exact Eval.agree_pure trivial
  · exact Eval.agree_fail _ pos

end Lookups

section Walk

variable [Arithmetic V] [Arithmetic W] {number : V → W → Prop} {change : Bool → Bool}
  {call : Invoke V} {call' : Invoke W}

mutual

theorem Expr.eval_agree (arithmetic : Corresponds number)
    (calls : Invoke.Agree number change call call') : (expr : Expr) → expr.isIntegral = true →
      Eval.Agree (.reflagging number change) (Option.Rel number) (expr.eval call)
        ((expr.reflag change).eval call')
  | .number (.int n) fixed pos, _ => by
      simp only [Expr.reflag, Expr.eval]
      apply Eval.agree_bind (Eval.agree_ofExcept pos (arithmetic.ofLiteral n _ _))
      intro x y same
      exact Eval.agree_pure (.some same)
  | .name name pos, _ => by
      simp only [Expr.reflag, Expr.eval]
      apply Eval.agree_bind (valueOf_agree name pos)
      intro x y same
      exact Eval.agree_pure (.some same)
  | .negate operand pos, integral => by
      simp only [Expr.isIntegral] at integral
      simp only [Expr.reflag, Expr.eval, Expr.pos_reflag]
      have agree := operand.eval_agree arithmetic calls integral
      apply Eval.agree_bind (Eval.agree_require _ agree)
      intro x y same
      apply Eval.agree_bind (Eval.agree_ofExcept pos (arithmetic.negate x y same))
      intro x y same
      exact Eval.agree_pure (.some same)
  | .chain first links, integral => by
      simp only [Expr.isIntegral, Bool.and_eq_true] at integral
      simp only [Expr.reflag, Expr.eval, Expr.pos_reflag]
      have agree := first.eval_agree arithmetic calls integral.1
      apply Eval.agree_bind (Eval.agree_require _ agree)
      intro x y same
      apply Eval.agree_bind (evalLinks_agree arithmetic calls links integral.2 x y same)
      intro x y same
      exact Eval.agree_pure (.some same)
  | .call name arguments pos, integral => by
      simp only [Expr.isIntegral] at integral
      simp only [Expr.reflag, Expr.eval, length_reflagExprs]
      apply Eval.agree_bind (functionOf_agree name pos)
      rintro definition _ ⟨integralBody, rfl⟩
      apply Eval.agree_bind (checkCount_agree definition name _ pos)
      intro _ _ _
      apply Eval.agree_bind (evalArguments_agree arithmetic calls arguments integral)
      intro values values' same
      exact calls definition values values' integralBody same

theorem evalLinks_agree (arithmetic : Corresponds number)
    (calls : Invoke.Agree number change call call') : (links : List Link) →
      linksIntegral links = true → (x : V) → (y : W) → number x y →
        Eval.Agree (.reflagging number change) number (evalLinks call x links)
          (evalLinks call' y (reflagLinks change links))
  | [], _, x, y, same => by
      simp only [reflagLinks, evalLinks]
      exact Eval.agree_pure same
  | ⟨op, operand, pos⟩ :: links, integral, x, y, same => by
      simp only [linksIntegral, Bool.and_eq_true] at integral
      simp only [reflagLinks, evalLinks, Expr.pos_reflag]
      have agree := operand.eval_agree arithmetic calls integral.1
      apply Eval.agree_bind (Eval.agree_require _ agree)
      intro x' y' same'
      have applied := arithmetic.apply op x x' y y' same same'
      apply Eval.agree_bind (Eval.agree_ofExcept pos applied)
      intro x y same
      exact evalLinks_agree arithmetic calls links integral.2 x y same

theorem evalArguments_agree (arithmetic : Corresponds number)
    (calls : Invoke.Agree number change call call') : (arguments : List Expr) →
      exprsIntegral arguments = true →
        Eval.Agree (.reflagging number change) (List.Forall₂ number)
          (evalArguments call arguments) (evalArguments call' (reflagExprs change arguments))
  | [], _ => by
      simp only [reflagExprs, evalArguments]
      exact Eval.agree_pure .nil
  | argument :: arguments, integral => by
      simp only [exprsIntegral, Bool.and_eq_true] at integral
      simp only [reflagExprs, evalArguments, Expr.pos_reflag]
      have agree := argument.eval_agree arithmetic calls integral.1
      apply Eval.agree_bind (Eval.agree_require _ agree)
      intro x y same
      apply Eval.agree_bind (evalArguments_agree arithmetic calls arguments integral.2)
      intro values values' rest
      exact Eval.agree_pure (.cons same rest)

end

theorem Expr.value_agree (arithmetic : Corresponds number)
    (calls : Invoke.Agree number change call call') (expr : Expr) (integral : expr.isIntegral = true) :
    Eval.Agree (.reflagging number change) number (expr.value call)
      ((expr.reflag change).value call') := by
  simp only [Expr.value, Expr.pos_reflag]
  exact Eval.agree_require _ (expr.eval_agree arithmetic calls integral)

theorem assign_agree (arithmetic : Corresponds number) (name : String)
    {declared : Option NumberType} (integral : declared ≠ some .float) {x : V} {y : W}
    (same : number x y) (pos : Nat) :
    Eval.Agree (.reflagging number change) (Option.Rel number) (assign name declared x pos)
      (assign name declared y pos) := by
  apply Eval.agree_bind Eval.agree_scopes
  intro scopes scopes' alike
  have previous : Option.Rel number ((scopes.local? name).bind Binding.number?)
      ((scopes'.local? name).bind Binding.number?) := by
    have found := alike.local? name
    generalize scopes.local? name = binding at found ⊢
    generalize scopes'.local? name = binding' at found ⊢
    cases found with
    | none => exact .none
    | some bound =>
      cases bound with
      | number same => exact .some same
      | function same => exact .none
  have stored := arithmetic.store name declared _ _ x y integral previous same
  apply Eval.agree_bind (Eval.agree_ofExcept pos stored)
  intro stored stored' same
  refine Eval.agree_bind (Eval.agree_modifyScopes ?_) ?_
  · intro scopes scopes' alike
    exact alike.define name (.number same)
  · intro _ _ _
    exact Eval.agree_pure (.some same)

mutual

theorem Statement.eval_agree (arithmetic : Corresponds number)
    (calls : Invoke.Agree number change call call') : (statement : Statement) →
      statement.isIntegral = true →
        Eval.Agree (.reflagging number change) (Option.Rel number) (statement.eval call)
          ((statement.reflag change).eval call')
  | .assign name declared value pos, integral => by
      simp only [Statement.isIntegral, Bool.and_eq_true, bne_iff_ne] at integral
      simp only [Statement.reflag, Statement.eval]
      apply Eval.agree_bind (value.value_agree arithmetic calls integral.2)
      intro x y same
      exact assign_agree arithmetic name integral.1 same pos
  | .define ⟨name, params, body, pos⟩, integral => by
      simp only [Statement.isIntegral] at integral
      simp only [Statement.reflag, Statement.eval, Definition.reflag]
      refine Eval.agree_bind (Eval.agree_modifyScopes ?_) ?_
      · intro scopes scopes' alike
        refine alike.define name (.function ⟨integral, ?_⟩)
        simp only [Definition.reflag]
      · intro _ _ _
        exact Eval.agree_pure .none
  | .block ⟨statements, pos⟩, integral => by
      simp only [Statement.isIntegral, Block.isIntegral] at integral
      simp only [Statement.reflag, Block.reflag, Statement.eval, Block.eval]
      exact Eval.agree_inFrame
        (evalStatements_agree arithmetic calls statements integral none none .none)
  | .ifThen condition consequence pos, integral => by
      simp only [Statement.isIntegral, Bool.and_eq_true] at integral
      simp only [Statement.reflag, Statement.eval]
      apply Eval.agree_bind (condition.value_agree arithmetic calls integral.1)
      intro x y same
      rw [arithmetic.isTruthy x y same]
      split
      · exact consequence.eval_agree arithmetic calls integral.2
      · exact Eval.agree_pure .none
  | .ifElse condition consequence alternative pos, integral => by
      simp only [Statement.isIntegral, Bool.and_eq_true] at integral
      simp only [Statement.reflag, Statement.eval]
      apply Eval.agree_bind (condition.value_agree arithmetic calls integral.1.1)
      intro x y same
      rw [arithmetic.isTruthy x y same]
      split
      · exact consequence.eval_agree arithmetic calls integral.1.2
      · exact alternative.eval_agree arithmetic calls integral.2
  | .print expr pos, integral => by
      simp only [Statement.isIntegral] at integral
      simp only [Statement.reflag, Statement.eval]
      apply Eval.agree_bind (expr.value_agree arithmetic calls integral)
      intro x y same
      apply Eval.agree_bind (Eval.agree_emit same)
      intro _ _ _
      exact Eval.agree_pure (.some same)
  | .reset pos, _ => by
      simp only [Statement.reflag, Statement.eval]
      apply Eval.agree_bind (Eval.agree_modifyScopes fun _ _ alike => alike.clear)
      intro _ _ _
      exact Eval.agree_pure .none
  | .expression expr, integral => by
      simp only [Statement.isIntegral] at integral
      simp only [Statement.reflag, Statement.eval]
      exact expr.eval_agree arithmetic calls integral

theorem evalStatements_agree (arithmetic : Corresponds number)
    (calls : Invoke.Agree number change call call') : (statements : List Statement) →
      statementsIntegral statements = true → (last : Option V) → (last' : Option W) →
        Option.Rel number last last' →
          Eval.Agree (.reflagging number change) (Option.Rel number)
            (evalStatements call last statements)
            (evalStatements call' last' (reflagStatements change statements))
  | [], _, last, last', same => by
      simp only [reflagStatements, evalStatements]
      exact Eval.agree_pure same
  | statement :: statements, integral, last, last', _ => by
      simp only [statementsIntegral, Bool.and_eq_true] at integral
      simp only [reflagStatements, evalStatements]
      apply Eval.agree_bind (statement.eval_agree arithmetic calls integral.1)
      intro last last' same
      exact evalStatements_agree arithmetic calls statements integral.2 last last' same

end

omit [Arithmetic V] [Arithmetic W] in
theorem bindParams_agree (params : List String) {values : List V} {values' : List W}
    (same : List.Forall₂ number values values') :
    Eval.Agree (.reflagging number change) (fun _ _ => True) (bindParams params values)
      (bindParams params values') := by
  apply Eval.agree_modifyScopes
  intro scopes scopes' alike
  induction same generalizing params scopes scopes' with
  | nil =>
    simp only [List.zip_nil_right, List.foldl_nil]
    exact alike
  | cons first rest ih =>
    cases params with
    | nil => exact alike
    | cons param params =>
      simp only [List.zip_cons_cons, List.foldl_cons]
      exact ih params _ _ (alike.define param (.number first))

theorem invoke_agree (arithmetic : Corresponds number) (depth : Nat) :
    Invoke.Agree number change (invoke depth : Invoke V) (invoke depth : Invoke W) := by
  induction depth with
  | zero =>
    intro definition values values' integral same session session' alike
    exact .none
  | succ depth ih =>
    rintro ⟨name, params, ⟨statements, _⟩, pos⟩ values values' integral same
    simp only [Definition.isIntegral, Block.isIntegral] at integral
    simp only [invoke, Definition.reflag, Block.reflag]
    apply Eval.agree_inFrame
    apply Eval.agree_bind (bindParams_agree params same)
    intro _ _ _
    exact evalStatements_agree arithmetic ih statements integral none none .none

end Walk

end Calculator

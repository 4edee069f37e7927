import Calculator.Evaluation

/-!
Chains as nested applications. A chain of several operators does what the chains of one operator do
that group its operators from the left: operand by operand, and with the same first error.
-/

namespace Calculator

mutual

/-- The expression with two operands in each chain. -/
def Expr.nested : Expr → Expr
  | .number value fixed pos => .number value fixed pos
  | .name name pos => .name name pos
  | .negate operand pos => .negate operand.nested pos
  | .chain first [] => .chain first.nested []
  | .chain first (⟨op, operand, pos⟩ :: links) =>
      nestLinks (.chain first.nested [⟨op, operand.nested, pos⟩]) links
  | .call name arguments pos => .call name (nestExprs arguments) pos

def nestLinks (left : Expr) : List Link → Expr
  | [] => left
  | ⟨op, operand, pos⟩ :: links => nestLinks (.chain left [⟨op, operand.nested, pos⟩]) links

def nestExprs : List Expr → List Expr
  | [] => []
  | expr :: exprs => expr.nested :: nestExprs exprs

end

theorem length_nestExprs (exprs : List Expr) : (nestExprs exprs).length = exprs.length := by
  induction exprs with
  | nil => rw [nestExprs]
  | cons expr exprs ih => rw [nestExprs, List.length_cons, List.length_cons, ih]

theorem Expr.nested_chain (first : Expr) {links : List Link} (nonempty : links ≠ []) :
    (Expr.chain first links).nested = nestLinks first.nested links := by
  rcases List.exists_cons_of_ne_nil nonempty with ⟨⟨op, operand, pos⟩, links, rfl⟩
  rw [Expr.nested, nestLinks]

theorem pos_nestLinks (left : Expr) (links : List Link) :
    (nestLinks left links).pos = left.pos := by
  induction links generalizing left with
  | nil => rw [nestLinks]
  | cons link links ih =>
    rcases link with ⟨op, operand, pos⟩
    rw [nestLinks, ih, Expr.pos]

theorem Expr.pos_nested : (expr : Expr) → expr.nested.pos = expr.pos
  | .number .. | .name .. | .negate .. | .call .. => by simp only [Expr.nested, Expr.pos]
  | .chain first [] => by
      simp only [Expr.nested, Expr.pos]
      exact first.pos_nested
  | .chain first (⟨_, _, _⟩ :: links) => by
      simp only [Expr.nested, pos_nestLinks, Expr.pos]
      exact first.pos_nested

variable {V α : Type}

theorem Eval.ext {action action' : Eval V α}
    (same : ∀ session, action.run session = action'.run session) : action = action' :=
  funext same

instance : LawfulMonad (Eval V) :=
  LawfulMonad.mk' (Eval V)
    (by
      intro α action
      apply Eval.ext
      intro session
      change (action >>= pure).run session = action.run session
      rw [Eval.run_bind]
      rcases action.run session with _ | ⟨_ | _, _⟩ <;> rfl)
    (fun _ _ => rfl)
    (by
      intro α β γ action next further
      apply Eval.ext
      intro session
      rw [Eval.run_bind, Eval.run_bind, Eval.run_bind]
      rcases action.run session with _ | ⟨_ | _, _⟩ <;> rfl)

theorem Eval.require_some (pos : Nat) (action : Eval V α) :
    Eval.require pos (do return some (← action)) = action := by
  rw [Eval.require, bind_assoc]
  simp only [pure_bind]
  exact bind_pure action

variable [Arithmetic V] {call : Invoke V}

theorem evalLinks_single (value : V) (op : BinaryOp) (operand : Expr) (pos : Nat) :
    evalLinks call value [⟨op, operand, pos⟩] = (do
      let right ← Eval.require operand.pos (operand.eval call)
      Eval.ofExcept pos (Arithmetic.apply op value right)) := by
  simp only [evalLinks, bind_pure]

mutual

theorem Expr.eval_nested : (expr : Expr) → expr.nested.eval call = expr.eval call
  | .number .. | .name .. => by simp only [Expr.nested]
  | .negate operand pos => by
      simp only [Expr.nested, Expr.eval, operand.pos_nested, operand.eval_nested]
  | .chain first [] => by
      simp only [Expr.nested, Expr.eval, first.pos_nested, first.eval_nested]
  | .chain first (⟨op, operand, pos⟩ :: links) => by
      have left : (Expr.chain first.nested [⟨op, operand.nested, pos⟩]).eval call = (do
          return some (← (do
            let value ← Eval.require first.pos (first.eval call)
            let right ← Eval.require operand.pos (operand.eval call)
            Eval.ofExcept pos (Arithmetic.apply op value right)))) := by
        simp only [Expr.eval, evalLinks_single, first.pos_nested, first.eval_nested,
          operand.pos_nested, operand.eval_nested, bind_assoc]
      simp only [Expr.nested, eval_nestLinks links left, Expr.eval, evalLinks, bind_assoc]
  | .call name arguments pos => by
      simp only [Expr.nested, Expr.eval, length_nestExprs, evalArguments_nested arguments]

theorem eval_nestLinks : (links : List Link) → {left : Expr} → {value : Eval V V} →
    left.eval call = (do return some (← value)) →
      (nestLinks left links).eval call = (do return some (← evalLinks call (← value) links))
  -- The value on the left is a chain already, so it is never missing.
  | [], left, value, same => by
      simp only [nestLinks, same, evalLinks, pure_bind]
  | ⟨op, operand, pos⟩ :: links, left, value, same => by
      have left' : (Expr.chain left [⟨op, operand.nested, pos⟩]).eval call = (do
          return some (← (do
            let value ← value
            let right ← Eval.require operand.pos (operand.eval call)
            Eval.ofExcept pos (Arithmetic.apply op value right)))) := by
        simp only [Expr.eval, same, Eval.require_some, evalLinks_single, operand.pos_nested,
          operand.eval_nested, bind_assoc]
      simp only [nestLinks, eval_nestLinks links left', evalLinks, bind_assoc]

theorem evalArguments_nested : (arguments : List Expr) →
    (evalArguments call (nestExprs arguments) : Eval V (List V)) = evalArguments call arguments
  | [] => by simp only [nestExprs]
  | argument :: arguments => by
      simp only [nestExprs, evalArguments, argument.pos_nested, argument.eval_nested,
        evalArguments_nested arguments]

end

end Calculator

import Calculator.Number.Typed

/-!
The operations that running a program needs of its numbers. Plain integers and typed numbers have
them.
-/

namespace Calculator

/-- `store` decides what an assignment to a name keeps, given the declared type and the number that
the name has in the same frame. -/
class Arithmetic (V : Type) where
  ofLiteral : (literal : Scalar) → (fixed : Bool) → Except Fault V
  isTruthy : V → Bool
  negate : V → Except Fault V
  apply : BinaryOp → V → V → Except Fault V
  store : (name : String) → (declared : Option NumberType) → (previous : Option V) → V →
    Except Fault V
  text : V → String

/-- Integer programs have no floats, neither as literals nor by declaration. -/
instance : Arithmetic Int64 where
  ofLiteral
    | .int value, _ => .ok value
    | .float value, _ => .error (.unsupported (.floatLiteral value))
  isTruthy n := n != 0
  negate := negateInteger
  apply := applyInteger
  store
    | _, some .float, _, _ => .error (.unsupported .floatDeclaration)
    | _, _, _, value => .ok value
  text := int64Text

instance : Arithmetic Number where
  ofLiteral literal fixed := .ok ⟨literal, fixed⟩
  isTruthy number :=
    match number.scalar with
    | .int n => n != 0
    | .float x => x != 0.0
  negate := Number.negate
  apply := Number.apply
  store := Number.store
  text := Number.text

end Calculator

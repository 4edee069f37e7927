import Calculator.Number.Scalar
import Calculator.Operator

/-!
What can go wrong while a program runs.
-/

namespace Calculator

inductive Missing
  | floatLiteral (value : Float)
  | floatDeclaration
  | bitsOfFloats (op : BinaryOp)
  | mixedOperands (op : BinaryOp)
  deriving Repr

inductive Fault
  | unbound (name : String)
  | unknownFunction (name : String)
  | notAFunction (name : String)
  | notAValue (name : String)
  | argumentCount (name : String) (expected found : Nat)
  | typeMismatch (left : NumberType) (op : BinaryOp) (right : NumberType)
  | notConvertible (source target : NumberType)
  | conflictingDeclaration (name : String) (declared existing : NumberType)
  | unsupported (missing : Missing)
  | noValue
  | divisionByZero
  | negativeExponent (exponent : Int64)
  | overflow (op : BinaryOp)
  | invalidShift (amount : Int64)
  | notRepresentable (value : Scalar) (target : NumberType)
  deriving Repr

theorem exists_of_bind_eq_ok {α β : Type} {operation : Except Fault α} {next : α → Except Fault β}
    {result : β} (done : (operation >>= next) = .ok result) :
    ∃ value, operation = .ok value ∧ next value = .ok result := by
  cases operation with
  | error fault => cases done
  | ok value => exact ⟨value, rfl, done⟩

end Calculator

import Calculator.Decimal.Layout

/-!
The two types of numbers, and numbers of either type.
-/

namespace Calculator

inductive NumberType
  | int
  | float
  deriving DecidableEq, Repr

namespace NumberType

def name : NumberType → String
  | int => "int"
  | float => "float"

def ofName? : String → Option NumberType
  | "int" => some int
  | "float" => some float
  | _ => none

/-- Only widening is implicit: every type converts to itself and integers convert to floats. -/
def convertsTo : NumberType → NumberType → Bool
  | float, int => false
  | _, _ => true

def wider : NumberType → NumberType → NumberType
  | int, int => int
  | _, _ => float

end NumberType

inductive Scalar
  | int (value : Int64)
  | float (value : Float)
  deriving Repr

namespace Scalar

def type : Scalar → NumberType
  | int _ => .int
  | float _ => .float

def int? : Scalar → Option Int64
  | int value => some value
  | float _ => none

def float? : Scalar → Option Float
  | int _ => none
  | float value => some value

def text : Scalar → String
  | int value => int64Text value
  | float value => floatText value

/-- Equality of floats is numerical: both zeros are equal, and the undefined number is not equal to
itself. -/
def same : Scalar → Scalar → Bool
  | int a, int b => a == b
  | float a, float b => a == b
  | _, _ => false

end Scalar

end Calculator

import Calculator.Decimal.Layout

/-!
Reading numbers. An integer has an optional sign and decimal digits. A floating-point number may
have a point, with a digit before or after it, and a power of ten; the names of infinity and of the
undefined number are read in either case.
-/

namespace Calculator

def readNat? (text : List Char) : Option Nat :=
  if text ≠ [] ∧ text.all Char.isDigit then some (Nat.ofDigitChars 10 text 0) else none

def splitSign : List Char → Bool × List Char
  | '-' :: rest => (true, rest)
  | '+' :: rest => (false, rest)
  | rest => (false, rest)

def readInt? (text : List Char) : Option Int :=
  let (negative, digits) := splitSign text
  (readNat? digits).map fun n => if negative then -(n : Int) else n

def int64? (n : Int) : Option Int64 :=
  if Int64.minValue.toInt ≤ n ∧ n ≤ Int64.maxValue.toInt then some (Int64.ofInt n) else none

def readInt64? (text : List Char) : Option Int64 := (readInt? text).bind int64?

namespace Decimal

/-- A number of this many digits before the point is beyond all finite floating-point numbers, and
one with this many zeros after the point is nearer to zero than all others. -/
def farPlace : Int := 400

/-- The nearest floating-point number, an even significand deciding between two. -/
def toFloat (decimal : Decimal) : Float :=
  let place := (natText decimal.coefficient).length + decimal.exponent
  if decimal.coefficient = 0 ∨ place < -farPlace then 0.0
  else if farPlace < place then 1.0 / 0.0
  else Float.ofScientific decimal.coefficient (decimal.exponent < 0) decimal.exponent.natAbs

def readPlain? (text : List Char) : Option Decimal :=
  let whole := text.takeWhile Char.isDigit
  match text.dropWhile Char.isDigit with
  | [] => (readNat? whole).map fun n => ⟨n, 0⟩
  | '.' :: fraction =>
      if fraction.all Char.isDigit then
        (readNat? (whole ++ fraction)).map fun n => ⟨n, -(fraction.length : Int)⟩
      else none
  | _ => none

def isPowerMark (c : Char) : Bool := c == 'e' || c == 'E'

def read? (text : List Char) : Option Decimal :=
  let plain := text.takeWhile fun c => !isPowerMark c
  match text.dropWhile fun c => !isPowerMark c with
  | [] => readPlain? plain
  | _ :: power =>
      match readPlain? plain, readInt? power with
      | some decimal, some shift => some ⟨decimal.coefficient, decimal.exponent + shift⟩
      | _, _ => none

end Decimal

def readMagnitude? (text : List Char) : Option Float :=
  match String.ofList (text.map Char.toLower) with
  | "inf" | "infinity" => some (1.0 / 0.0)
  | "nan" => some (0.0 / 0.0)
  | _ => (Decimal.read? text).map Decimal.toFloat

def readFloat? (text : List Char) : Option Float :=
  let (negative, magnitude) := splitSign text
  (readMagnitude? magnitude).map fun x => if negative then -x else x

end Calculator

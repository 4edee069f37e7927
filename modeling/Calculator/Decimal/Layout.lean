import Calculator.Decimal.Shortest

/-!
The text of numbers. Integers are plain digits. A floating-point number has the digits of its
shortest decimal, with a point, unless it is so large or so small that a power of ten is written.
-/

namespace Calculator

def natText (n : Nat) : List Char := Nat.toDigits 10 n

def signText (negative : Bool) : List Char := if negative then ['-'] else []

def intText (n : Int) : List Char := signText (n < 0) ++ natText n.natAbs

namespace Decimal

/-- A power of ten is written for numbers below `10 ^ -4` and from `10 ^ 16` on. -/
def smallestPointPlace : Int := -3

def largestPointPlace : Int := 16

/-- Digits with the point after the first `place` of them; zeros fill the gap to the point. -/
def withPoint (digits : List Char) (place : Int) : List Char :=
  if place ≤ 0 then
    ['0', '.'] ++ List.replicate (-place).toNat '0' ++ digits
  else if place < digits.length then
    digits.take place.toNat ++ ['.'] ++ digits.drop place.toNat
  else
    digits ++ List.replicate (place.toNat - digits.length) '0' ++ ['.', '0']

/-- One digit, the others after a point, and the power of ten. -/
def withPower (digits : List Char) (place : Int) : List Char :=
  let fraction := if digits.length ≤ 1 then [] else '.' :: digits.drop 1
  digits.take 1 ++ fraction ++ ['e'] ++ intText (place - 1)

def text (decimal : Decimal) : List Char :=
  let digits := natText decimal.coefficient
  let place := digits.length + decimal.exponent
  if smallestPointPlace ≤ place ∧ place ≤ largestPointPlace then withPoint digits place
  else withPower digits place

end Decimal

namespace Binary

def text : Binary → List Char
  | nan => ['N', 'a', 'N']
  | infinite negative => signText negative ++ ['i', 'n', 'f']
  | finite negative 0 _ => signText negative ++ ['0', '.', '0']
  | finite negative significand exponent =>
      signText negative ++ (RoundingRange.around significand exponent).shortest.text

end Binary

def floatText (x : Float) : String := String.ofList (Binary.ofFloat x).text

example : [0.0, -0.0, 2.0, 0.1, 0.0001].map floatText = ["0.0", "-0.0", "2.0", "0.1", "0.0001"] := by
  decide +kernel

example : [1e15, 1e16, 1.5e16, 1e-5, 5e-324].map floatText =
    ["1000000000000000.0", "1e16", "1.5e16", "1e-5", "5e-324"] := by
  decide +kernel

def int64Text (n : Int64) : String := String.ofList (intText n.toInt)

end Calculator

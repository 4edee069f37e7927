import Calculator.Decimal.Reader
import Calculator.Number.Fault

/-!
Operators on 64-bit integers. A result is the mathematical one or a fault; nothing wraps around
except the bits that a shift to the left drops.
-/

namespace Calculator

def checked (op : BinaryOp) (result : Int) : Except Fault Int64 :=
  match int64? result with
  | some value => .ok value
  | none => .error (.overflow op)

def ofTruth (truth : Bool) : Int64 := if truth then 1 else 0

def maxExponent : Int := 4294967295

def exponent (n : Int64) : Except Fault Nat :=
  if n < 0 then .error (.negativeExponent n)
  else if maxExponent < n.toInt then .error (.overflow .pow)
  else .ok n.toInt.toNat

/-- Zero, one and minus one have powers for every exponent that is not negative. The powers of any
other base at least double with each step and do not fit beyond the 63rd. -/
def power (base n : Int64) : Except Fault Int64 :=
  if base = 1 ∧ 0 ≤ n then .ok 1
  else if base = 0 ∧ 0 < n then .ok 0
  else if base = -1 ∧ 0 ≤ n then .ok (if n.toInt % 2 = 0 then 1 else -1)
  else do
    let count ← exponent n
    if count ≤ 64 then checked .pow (base.toInt.pow count) else throw (.overflow .pow)

def shiftAmount (n : Int64) : Except Fault Int64 :=
  if 0 ≤ n ∧ n < 64 then .ok n else .error (.invalidShift n)

def divide (a b : Int64) : Except Fault Int64 :=
  if b = 0 then .error .divisionByZero else checked .div (a.toInt.tdiv b.toInt)

/-- Comparisons yield one or zero, division truncates toward zero, and a shift to the right keeps the
sign. -/
def applyInteger (op : BinaryOp) (a b : Int64) : Except Fault Int64 :=
  match op with
  | .equal => .ok (ofTruth (a == b))
  | .notEqual => .ok (ofTruth (a != b))
  | .less => .ok (ofTruth (a < b))
  | .greater => .ok (ofTruth (b < a))
  | .lessEqual => .ok (ofTruth (a ≤ b))
  | .greaterEqual => .ok (ofTruth (b ≤ a))
  | .bitOr => .ok (a ||| b)
  | .bitXor => .ok (a ^^^ b)
  | .bitAnd => .ok (a &&& b)
  | .shiftLeft => do return a <<< (← shiftAmount b)
  | .shiftRight => do return a >>> (← shiftAmount b)
  | .add => checked .add (a.toInt + b.toInt)
  | .sub => checked .sub (a.toInt - b.toInt)
  | .mul => checked .mul (a.toInt * b.toInt)
  | .div => divide a b
  | .pow => power a b

def negateInteger (a : Int64) : Except Fault Int64 := checked .sub (-a.toInt)

end Calculator

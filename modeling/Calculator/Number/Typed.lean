import Calculator.Number.Integer

/-!
Numbers with a type. The type of a number is fixed once it has been declared or bound; the type of a
computed number is free to widen.
-/

namespace Calculator

structure Number where
  scalar : Scalar
  fixed : Bool
  deriving Repr

namespace Number

def type (number : Number) : NumberType := number.scalar.type

def fix (number : Number) : Number := { number with fixed := true }

def text (number : Number) : String := number.scalar.text

end Number

/-- The largest integer of 53 bits. Beyond it neighbouring integers share a float. -/
def maxSafeInteger : Int := 9007199254740991

def widen (n : Int64) : Except Fault Float :=
  if -maxSafeInteger ≤ n.toInt ∧ n.toInt ≤ maxSafeInteger then .ok (Float.ofInt n.toInt)
  else .error (.notRepresentable (.int n) .float)

def narrow (x : Float) : Except Fault Int64 :=
  match (Binary.ofFloat x).truncate?.bind int64? with
  | some n => .ok n
  | none => .error (.notRepresentable (.float x) .int)

def Scalar.convert : Scalar → NumberType → Except Fault Scalar
  | .int n, .float => do return .float (← widen n)
  | .float x, .int => do return .int (← narrow x)
  | scalar, _ => .ok scalar

def applyFloat (op : BinaryOp) (a b : Float) : Except Fault Scalar :=
  match op with
  | .equal => .ok (.int (ofTruth (a == b)))
  | .notEqual => .ok (.int (ofTruth (a != b)))
  | .less => .ok (.int (ofTruth (a < b)))
  | .greater => .ok (.int (ofTruth (b < a)))
  | .lessEqual => .ok (.int (ofTruth (a ≤ b)))
  | .greaterEqual => .ok (.int (ofTruth (b ≤ a)))
  | .add => .ok (.float (a + b))
  | .sub => .ok (.float (a - b))
  | .mul => .ok (.float (a * b))
  | .div => if b == 0.0 then .error .divisionByZero else .ok (.float (a / b))
  | .pow => .ok (.float (a ^ b))
  | .bitOr | .bitXor | .bitAnd | .shiftLeft | .shiftRight =>
      .error (.unsupported (.bitsOfFloats op))

namespace Number

/-- Converts the payload and leaves the type as fixed or free as it was. -/
def convert (number : Number) (target : NumberType) : Except Fault Number := do
  return { number with scalar := ← number.scalar.convert target }

def requireConvertible (source target : NumberType) : Except Fault NumberType :=
  if source.convertsTo target then .ok target else .error (.notConvertible source target)

/-- The type in which an operation is carried out. Fixed types must agree, a free operand widens to
a fixed one, and two free operands meet in the wider type. -/
def operationType (left : Number) (op : BinaryOp) (right : Number) : Except Fault NumberType :=
  match left.fixed, right.fixed with
  | true, true =>
      if left.type = right.type then .ok left.type
      else .error (.typeMismatch left.type op right.type)
  | true, false => requireConvertible right.type left.type
  | false, true => requireConvertible left.type right.type
  | false, false => .ok (left.type.wider right.type)

def negate (number : Number) : Except Fault Number :=
  match number.scalar with
  | .int n => do return { number with scalar := .int (← negateInteger n) }
  | .float x => .ok { number with scalar := .float (-x) }

/-- The result was not declared, so its type is free. -/
def apply (op : BinaryOp) (left right : Number) : Except Fault Number := do
  let target ← left.operationType op right
  let a ← left.convert target
  let b ← right.convert target
  match a.scalar, b.scalar with
  | .int a, .int b => return ⟨.int (← applyInteger op a b), false⟩
  | .float a, .float b => return ⟨← applyFloat op a b, false⟩
  | _, _ => throw (.unsupported (.mixedOperands op))

def coerce (number : Number) (target : NumberType) : Except Fault Number :=
  if number.type = target then .ok number
  else if number.fixed || !number.type.convertsTo target then
    .error (.notConvertible number.type target)
  else number.convert target

/-- The type that a binding holds its name to. A free number, such as an argument that was computed,
holds it to none. -/
def fixedType? (number : Number) : Option NumberType :=
  if number.fixed then some number.type else none

/-- The number that an assignment stores. A declaration may not change the type the name is held to;
the stored number is of the declared type, else of the type the name is held to, and fixed. -/
def store (name : String) (declared : Option NumberType) (previous : Option Number)
    (number : Number) : Except Fault Number :=
  match declared, previous.bind fixedType? with
  | some declared, some existing =>
      if declared ≠ existing then .error (.conflictingDeclaration name declared existing)
      else do return (← number.coerce declared).fix
  | some target, none | none, some target => do return (← number.coerce target).fix
  | none, none => .ok number.fix

end Number

end Calculator

/-!
The binary operators and the text each is written with.
-/

namespace Calculator

inductive BinaryOp
  | equal | notEqual | less | greater | lessEqual | greaterEqual
  | bitOr | bitXor | bitAnd
  | shiftLeft | shiftRight
  | add | sub | mul | div | pow
  deriving DecidableEq, Repr

namespace BinaryOp

def all : List BinaryOp :=
  [equal, notEqual, less, greater, lessEqual, greaterEqual, bitOr, bitXor, bitAnd, shiftLeft,
    shiftRight, add, sub, mul, div, pow]

def symbol : BinaryOp → String
  | equal => "=="
  | notEqual => "!="
  | less => "<"
  | greater => ">"
  | lessEqual => "<="
  | greaterEqual => ">="
  | bitOr => "|"
  | bitXor => "^"
  | bitAnd => "&"
  | shiftLeft => "<<"
  | shiftRight => ">>"
  | add => "+"
  | sub => "-"
  | mul => "*"
  | div => "/"
  | pow => "**"

def ofSymbol? (text : String) : Option BinaryOp := all.find? fun op => op.symbol == text

def isComparison : BinaryOp → Bool
  | equal | notEqual | less | greater | lessEqual | greaterEqual => true
  | _ => false

def isBitwise : BinaryOp → Bool
  | bitOr | bitXor | bitAnd | shiftLeft | shiftRight => true
  | _ => false

theorem mem_all (op : BinaryOp) : op ∈ all := by
  cases op <;> decide

end BinaryOp

end Calculator

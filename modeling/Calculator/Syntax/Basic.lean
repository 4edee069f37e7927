import Calculator.Number.Scalar
import Calculator.Operator

/-!
The trees of programs. Positions count the bytes of the source before a node.
-/

namespace Calculator

mutual

/-- A chain applies its links from left to right to the value of its first operand. -/
inductive Expr
  | number (value : Scalar) (fixed : Bool) (pos : Nat)
  | name (name : String) (pos : Nat)
  | negate (operand : Expr) (pos : Nat)
  | chain (first : Expr) (links : List Link)
  | call (name : String) (arguments : List Expr) (pos : Nat)

structure Link where
  op : BinaryOp
  operand : Expr
  pos : Nat

end

mutual

inductive Statement
  | assign (name : String) (declared : Option NumberType) (value : Expr) (pos : Nat)
  | define (definition : Definition)
  | block (body : Block)
  | ifThen (condition : Expr) (consequence : Statement) (pos : Nat)
  | ifElse (condition : Expr) (consequence alternative : Statement) (pos : Nat)
  | print (value : Expr) (pos : Nat)
  | reset (pos : Nat)
  | expression (value : Expr)

structure Block where
  statements : List Statement
  pos : Nat

structure Definition where
  name : String
  params : List String
  body : Block
  pos : Nat

end

abbrev Program := List Statement

namespace Expr

/-- Where an expression begins. -/
def pos : Expr → Nat
  | number _ _ pos => pos
  | name _ pos => pos
  | negate _ pos => pos
  | chain first _ => first.pos
  | call _ _ pos => pos

def ofLinks (first : Expr) : List Link → Expr
  | [] => first
  | links => chain first links

end Expr

end Calculator

import Calculator.Decimal.Reader
import Calculator.Grammar.Parser
import Calculator.Syntax.Basic

/-!
The grammar of expressions.

  expression := level 1 of `precedence`
  level k    := level k+1 (operator of level k, level k+1)*
  last level := power
  power      := unary ("**" power)?
  unary      := "-" unary | call
  call       := primary ("(" (expression ("," expression)*)? ")")?, where the primary is a name
  primary    := NUMBER | DECIMAL | IDENTIFIER | "(" expression ")"
-/

namespace Calculator

/-- The operators that group from the left, level by level, those that bind least first. -/
def precedence : List (List BinaryOp) := [
  [.equal, .notEqual, .less, .greater, .lessEqual, .greaterEqual],
  [.bitOr],
  [.bitXor],
  [.bitAnd],
  [.shiftLeft, .shiftRight],
  [.add, .sub],
  [.mul, .div]]

namespace Parser

def operatorOf (operators : List BinaryOp) : Parser (Option BinaryOp) := do
  return (← kind).operator?.filter (· ∈ operators)

def links (operators : List BinaryOp) (operand : Parser Expr) :
    (room : List Token) → Parser (List Link)
  | [] => return []
  | _ :: room => do
      match ← operatorOf operators with
      | some op =>
          let pos := (← advance).pos
          let right ← operand
          return ⟨op, right, pos⟩ :: (← links operators operand room)
      | none => return []

def chain (operators : List BinaryOp) (operand : Parser Expr) : Parser Expr := do
  let first ← operand
  return .ofLinks first (← within (links operators operand))

def chains (operand : Parser Expr) : List (List BinaryOp) → Parser Expr
  | [] => operand
  | operators :: tighter => chain operators (chains operand tighter)

/-- The exponent is a power itself, so that powers group from the right. -/
def powers (base : Parser Expr) : (room : List Token) → Parser Expr
  | [] => base
  | _ :: room => do
      let first ← base
      if (← kind) = .operator .pow then
        let pos := (← advance).pos
        return .chain first [⟨.pow, ← powers base room, pos⟩]
      else return first

def negations (operand : Parser Expr) : (room : List Token) → Parser Expr
  | [] => operand
  | _ :: room => do
      if (← kind) = .operator .sub then
        let pos := (← advance).pos
        return .negate (← negations operand room) pos
      else operand

def literal (read : List Char → Option Scalar) : Parser Expr := do
  let token ← advance
  match read token.text.toList with
  | some value => return .number value false token.pos
  | none => fail (.invalidLiteral token.text token.pos)

def primaryWith (nested : Parser Expr) : Parser Expr := do
  match ← kind with
  | .number => literal fun text => (readInt64? text).map .int
  | .decimal => literal fun text => (readFloat? text).map .float
  | .identifier =>
      let token ← advance
      return .name token.text token.pos
  | .leftParen =>
      discard advance
      let inner ← nested
      discard (expect .rightParen)
      return inner
  | _ => unexpected (.phrase "expression")

def notCallable : Parser Expr := do fail (.notCallable (← current).pos)

/-- Only a name can be called, and what a call yields cannot be called again. -/
def callWith (nested : Parser Expr) : Parser Expr := do
  let target ← primaryWith nested
  if (← kind) = .leftParen then
    match target with
    | .name name pos =>
        discard advance
        let arguments ← commaSeparated nested .rightParen
        if (← kind) = .leftParen then notCallable else return .call name arguments pos
    | _ => notCallable
  else return target

def unaryWith (nested : Parser Expr) : Parser Expr := within (negations (callWith nested))

def powerWith (nested : Parser Expr) : Parser Expr := within (powers (unaryWith nested))

def levelWith (nested : Parser Expr) (levels : List (List BinaryOp)) : Parser Expr :=
  chains (powerWith nested) levels

/-- The expression inside parentheses. The room is what was left in front of the parentheses, so one
token less is left inside. -/
def nested : (room : List Token) → Parser Expr
  | [], stream => unexpected (.phrase "expression") stream
  | _ :: room, stream => levelWith (nested room) precedence stream

def primary : Parser Expr := within fun room => primaryWith (nested room)

def call : Parser Expr := within fun room => callWith (nested room)

def unary : Parser Expr := within fun room => unaryWith (nested room)

def level (skipped : Nat) : Parser Expr :=
  within fun room => levelWith (nested room) (precedence.drop skipped)

def comparison : Parser Expr := level 0

def bitOr : Parser Expr := level 1

def bitXor : Parser Expr := level 2

def bitAnd : Parser Expr := level 3

def shift : Parser Expr := level 4

def additive : Parser Expr := level 5

def multiplicative : Parser Expr := level 6

def power : Parser Expr := level 7

def expression : Parser Expr := comparison

end Parser

end Calculator

import Calculator.Lexer
import Calculator.Number.Fault

/-!
What can go wrong from reading a source to running it, and the words for it. Every failure but a
refused rule names a position of the source.
-/

namespace Calculator

inductive Expected
  | anyOf (kinds : List Kind)
  | phrase (text : String)
  deriving DecidableEq, Repr

inductive ParseError
  | lexical (error : LexError)
  | unexpected (expected : Expected) (found : Kind) (pos : Nat)
  | missingThen (found : Kind) (pos : Nat)
  | notCallable (pos : Nat)
  | invalidLiteral (text : String) (pos : Nat)
  deriving DecidableEq, Repr

structure EvalError where
  fault : Fault
  pos : Nat
  deriving Repr

inductive Failure
  | lexical (error : LexError)
  | syntactic (error : ParseError)
  | runtime (error : EvalError)
  deriving Repr

inductive FailureKind
  | lex | parse | name | arity | type | arithmetic
  deriving DecidableEq, Repr

def atPosition (pos : Nat) (words : String) : String := s!"Error at position {pos}: {words}"

namespace LexError

def message : LexError → String
  | noMatch snippet pos => atPosition pos s!"Could not match anything at '{snippet}'."
  | unclassified text pos => atPosition pos s!"'{text}' matched but no rule classifies it."
  | invalidRule pattern => s!"Invalid lexical rule '{pattern}'"

end LexError

namespace Expected

def text : Expected → String
  | anyOf kinds => " or ".intercalate (kinds.map Kind.label)
  | phrase text => text

end Expected

namespace ParseError

def message : ParseError → String
  | lexical error => error.message
  | unexpected expected found pos =>
      atPosition pos s!"Expected {expected.text}, found {found.label}."
  | missingThen found pos =>
      atPosition pos s!"Expected 'then' after if condition, found {found.label}."
  | notCallable pos => atPosition pos "Only named functions can be called."
  | invalidLiteral text pos => atPosition pos s!"Invalid numeric literal '{text}'."

def toFailure : ParseError → Failure
  | lexical error => .lexical error
  | error => .syntactic error

end ParseError

namespace Missing

def details : Missing → String
  | floatLiteral value => s!"decimal literal {floatText value} needs the typed evaluator"
  | floatDeclaration => "float declarations need the typed evaluator"
  | bitsOfFloats op => s!"'{op.symbol}' requires int operands"
  | mixedOperands op => s!"'{op.symbol}' on mixed operands"

end Missing

namespace Fault

def words : Fault → String
  | unbound name => s!"Unbound identifier '{name}'."
  | unknownFunction name => s!"Unknown function '{name}'."
  | notAFunction name => s!"'{name}' is not a function."
  | notAValue name => s!"Function '{name}' cannot be used as a value."
  | argumentCount name expected found =>
      s!"'{name}' takes {expected} argument(s) but {found} were supplied."
  | typeMismatch left op right => s!"Type mismatch: {left.name} {op.symbol} {right.name}."
  | notConvertible source target => s!"Cannot convert {source.name} to {target.name}."
  | conflictingDeclaration name declared existing =>
      s!"'{name}' is already {existing.name}, cannot redeclare it as {declared.name}."
  | unsupported missing => s!"Type error: {missing.details}."
  | noValue => "Expression produced no value."
  | divisionByZero => "Division by zero."
  | negativeExponent exponent => s!"Integer power with negative exponent {int64Text exponent}."
  | overflow op => s!"Integer overflow while computing '{op.symbol}'."
  | invalidShift amount => s!"Invalid shift amount {int64Text amount}."
  | notRepresentable value target => s!"{value.text} is not representable as {target.name}."

def kind : Fault → FailureKind
  | unbound _ | unknownFunction _ | notAFunction _ => .name
  | argumentCount .. => .arity
  | notAValue _ | typeMismatch .. | notConvertible .. | conflictingDeclaration .. | unsupported _
  | noValue => .type
  | divisionByZero | negativeExponent _ | overflow _ | invalidShift _ | notRepresentable .. =>
      .arithmetic

end Fault

namespace FailureKind

def label : FailureKind → String
  | lex => "LexError"
  | parse => "ParseError"
  | name => "NameError"
  | arity => "ArityError"
  | type => "TypeError"
  | arithmetic => "ArithmeticError"

end FailureKind

namespace Failure

def kind : Failure → FailureKind
  | lexical _ => .lex
  | syntactic _ => .parse
  | runtime error => error.fault.kind

def message : Failure → String
  | lexical error => error.message
  | syntactic error => error.message
  | runtime error => atPosition error.pos error.fault.words

end Failure

end Calculator

import Calculator.Operator

/-!
Tokens: the kinds of words of the language, and words at their places in a source.
-/

namespace Calculator

inductive Keyword
  | setWord | ifWord | thenWord | elseWord | funcWord | printWord | resetWord
  deriving DecidableEq, Repr

namespace Keyword

def all : List Keyword := [setWord, ifWord, thenWord, elseWord, funcWord, printWord, resetWord]

def spelling : Keyword → String
  | setWord => "set"
  | ifWord => "if"
  | thenWord => "then"
  | elseWord => "else"
  | funcWord => "func"
  | printWord => "print"
  | resetWord => "reset"

end Keyword

/-- `typeWord` covers the two type names, `newline` and `semicolon` separate statements. -/
inductive Kind
  | keyword (word : Keyword)
  | typeWord
  | newline
  | decimal
  | number
  | identifier
  | operator (op : BinaryOp)
  | leftParen
  | rightParen
  | leftBrace
  | rightBrace
  | assign
  | semicolon
  | comma
  | endOfInput
  deriving DecidableEq, Repr

namespace Kind

def all : List Kind :=
  Keyword.all.map keyword ++ [typeWord, newline, decimal, number, identifier] ++
    BinaryOp.all.map operator ++
    [leftParen, rightParen, leftBrace, rightBrace, assign, semicolon, comma, endOfInput]

def quoted (text : String) : String := "'" ++ text ++ "'"

/-- How messages name a kind: a fixed spelling in quotes, a class of words in capitals. -/
def label : Kind → String
  | keyword word => quoted word.spelling
  | typeWord => "TYPE"
  | newline => "NEWLINE"
  | decimal => "DECIMAL"
  | number => "NUMBER"
  | identifier => "IDENTIFIER"
  | operator op => quoted op.symbol
  | leftParen => "'('"
  | rightParen => "')'"
  | leftBrace => "'\x7b'"
  | rightBrace => "'\x7d'"
  | assign => "'='"
  | semicolon => "';'"
  | comma => "','"
  | endOfInput => "EOF"

def ofLabel? (text : String) : Option Kind := all.find? fun kind => kind.label == text

def operator? : Kind → Option BinaryOp
  | operator op => some op
  | _ => none

def isSeparator : Kind → Bool
  | newline | semicolon => true
  | _ => false

end Kind

/-- A word of a source. `pos` counts the bytes of UTF-8 before it. -/
structure Token where
  kind : Kind
  text : String
  pos : Nat
  deriving DecidableEq, Repr

def Token.atEnd (pos : Nat) : Token := ⟨.endOfInput, "", pos⟩

end Calculator

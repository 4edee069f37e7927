import Calculator.Lexer
import Calculator.Pattern.Reader

/-!
The words of the calculator language, and tables of other words given as text.
-/

namespace Calculator

namespace Pattern

def digit : Pattern := .oneOf (.between '0' '9')

def nameStart : Pattern := .oneOf (.ofRanges [('A', 'Z'), ('_', '_'), ('a', 'z')])

def namePart : Pattern := .oneOf (.ofRanges [('0', '9'), ('A', 'Z'), ('_', '_'), ('a', 'z')])

def wholeWord (word : List Char) : Pattern := sequence [literal word, .border .boundary]

end Pattern

namespace Lexer

/-- Keywords come before names and longer operators before shorter ones, so that the best match is
the longest. -/
def standardRules : List Rule := [
  .of (.wholeWord ['s', 'e', 't']) (.keyword .setWord),
  .of (.wholeWord ['i', 'f']) (.keyword .ifWord),
  .of (.wholeWord ['t', 'h', 'e', 'n']) (.keyword .thenWord),
  .of (.wholeWord ['e', 'l', 's', 'e']) (.keyword .elseWord),
  .of (.wholeWord ['f', 'u', 'n', 'c']) (.keyword .funcWord),
  .of (.wholeWord ['p', 'r', 'i', 'n', 't']) (.keyword .printWord),
  .of (.wholeWord ['r', 'e', 's', 'e', 't']) (.keyword .resetWord),
  .of (.wholeWord ['i', 'n', 't']) .typeWord,
  .of (.wholeWord ['f', 'l', 'o', 'a', 't']) .typeWord,
  .of (.char '\n') .newline,
  .of (.seq (.star .digit) (.seq (.char '.') (.plus .digit))) .decimal,
  .of (.plus .digit) .number,
  .of (.seq .nameStart (.star .namePart)) .identifier,
  .of (.literal ['*', '*']) (.operator .pow),
  .of (.literal ['!', '=']) (.operator .notEqual),
  .of (.literal ['=', '=']) (.operator .equal),
  .of (.literal ['>', '=']) (.operator .greaterEqual),
  .of (.literal ['<', '=']) (.operator .lessEqual),
  .of (.literal ['>', '>']) (.operator .shiftRight),
  .of (.literal ['<', '<']) (.operator .shiftLeft),
  .of (.char '&') (.operator .bitAnd),
  .of (.char '^') (.operator .bitXor),
  .of (.char '|') (.operator .bitOr),
  .of (.char '<') (.operator .less),
  .of (.char '>') (.operator .greater),
  .of (.char '+') (.operator .add),
  .of (.char '-') (.operator .sub),
  .of (.char '*') (.operator .mul),
  .of (.char '/') (.operator .div),
  .of (.char '(') .leftParen,
  .of (.char ')') .rightParen,
  .of (.char '\x7b') .leftBrace,
  .of (.char '\x7d') .rightBrace,
  .of (.char '=') .assign,
  .of (.char ';') .semicolon,
  .of (.char ',') .comma]

def standard (skipsBlanks : Bool) : Lexer := ⟨standardRules, skipsBlanks⟩

def maxDepth : Nat := 250

/-- Reads the patterns of a table. The first one that cannot be read, or is nested too deep when it
stands alone between the two ends of a word, is refused. All groups of a table have different
numbers. -/
def readTable (firstGroup : Nat) :
    List (String × Kind) → Except LexError (List (List Pattern.Reading × Kind))
  | [] => .ok []
  | (text, kind) :: table =>
      match Pattern.read? firstGroup text.toList with
      | none => .error (.invalidRule text)
      | some branches =>
          if branches.any fun branch => maxDepth < branch.depth + 1 then .error (.invalidRule text)
          else (readTable (firstGroup + text.length) table).map ((branches, kind) :: ·)

def unionText (table : List (String × Kind)) : String :=
  "|".intercalate (table.map fun (text, _) => "(?:" ++ text ++ ")")

/-- A lexer whose rules are given as text. The patterns together, within a bracket at the start of a
text, must not be nested too deep either. -/
def ofTable (table : List (String × Kind)) (skipsBlanks : Bool) : Except LexError Lexer := do
  let rules ← readTable 0 table
  if maxDepth < Pattern.Reading.depthOf (rules.flatMap Prod.fst) + 2 then
    .error (.invalidRule (unionText table))
  else
    .ok ⟨rules.map fun (branches, kind) => ⟨branches.map (·.pattern), kind⟩, skipsBlanks⟩

end Lexer

end Calculator

import Calculator.Pattern.CharClass
import Calculator.Text.WordChar

/-!
Patterns of text. An earlier alternative is better than a later one, and one more repetition is
better than stopping; `Calculator.Pattern.Search` says which match of a pattern is the best.
`Pattern.sequence` and `Pattern.choice` join patterns and bring them into one form: sequences within
sequences and alternatives within alternatives are opened, and what all alternatives begin with is
taken out in front of them.
-/

namespace Calculator

/-- A condition on the two characters around a place. It takes no character itself. -/
inductive Border
  | boundary
  | noBoundary
  | wordStart
  | wordEnd
  deriving DecidableEq, Repr

/-- A `group` matches what its body matches. Its number tells it from other groups, so that two
groups are never the same part of a pattern, even if they are written alike. -/
inductive Pattern
  | empty
  | oneOf (accepted : CharClass)
  | border (condition : Border)
  | group (number : Nat) (body : Pattern)
  | seq (first second : Pattern)
  | alt (first second : Pattern)
  | plus (body : Pattern)
  deriving DecidableEq, Repr

/-- A place in a text: the characters before it, last one first, and the characters after it. -/
structure Cursor where
  taken : List Char
  rest : List Char
  deriving DecidableEq, Repr

namespace Cursor

def start (text : List Char) : Cursor := ⟨[], text⟩

def text (here : Cursor) : List Char := here.taken.reverse ++ here.rest

def onward (taken : List Char) : List Char → List Cursor
  | [] => [⟨taken, []⟩]
  | c :: rest => ⟨taken, c :: rest⟩ :: onward (c :: taken) rest

def meets (here : Cursor) (condition : Border) : Bool :=
  let before := here.taken.head?.any isWordChar
  let after := here.rest.head?.any isWordChar
  match condition with
  | .boundary => before != after
  | .noBoundary => before == after
  | .wordStart => !before && after
  | .wordEnd => before && !after

end Cursor

namespace Pattern

def char (c : Char) : Pattern := .oneOf (.just c)

def optional (body : Pattern) : Pattern := .alt body .empty

def star (body : Pattern) : Pattern := optional (.plus body)

def chain : List Pattern → Pattern
  | [] => .empty
  | [pattern] => pattern
  | pattern :: rest => .seq pattern (chain rest)

def literal (text : List Char) : Pattern := chain (text.map char)

def anyOf : List Pattern → Pattern
  | [] => .empty
  | [pattern] => pattern
  | pattern :: rest => .alt pattern (anyOf rest)

def parts : Pattern → List Pattern
  | .empty => []
  | .seq first second => first.parts ++ second.parts
  | pattern => [pattern]

def alternatives : Pattern → List Pattern
  | .alt first second => first.alternatives ++ second.alternatives
  | pattern => [pattern]

def sequence (patterns : List Pattern) : Pattern := chain (patterns.flatMap parts)

def commonStart : List Pattern → List Pattern → List Pattern
  | left :: lefts, right :: rights => if left = right then left :: commonStart lefts rights else []
  | _, _ => []

/-- The parts with which all alternatives begin, provided that each has at least two parts. -/
def sharedParts : List (List Pattern) → List Pattern
  | first :: second :: others =>
      if (first :: second :: others).all (2 ≤ ·.length) then
        others.foldl commonStart (commonStart first second)
      else []
  | _ => []

/-- The first pattern that matches, where the parts that all alternatives begin with are matched
only once, before the alternatives part. -/
def choice (patterns : List Pattern) : Pattern :=
  let branches := patterns.flatMap alternatives
  match sharedParts (branches.map parts) with
  | [] => anyOf branches
  | shared =>
      let endings := branches.map fun branch => chain (branch.parts.drop shared.length)
      sequence (shared ++ [anyOf (endings.flatMap alternatives)])

end Pattern

end Calculator

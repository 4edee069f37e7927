import Calculator.Pattern.Basic
import Calculator.Pattern.Bracket

/-!
Patterns written as text: characters, escapes, classes in brackets, groups, alternatives, repetition
and borders. `Pattern.read?` takes one character at a time and keeps the groups that are still open,
innermost first.

Only this part of the syntax of patterns is read. What else patterns can say is refused like a text
that is no pattern at all:
* the dot for any character, and the anchors `^` and `$`;
* counted repetition in braces, and lazy repetition as in `a*?`, `a+?` and `a??`;
* groups that begin with a question mark: those without a number, those with a name, and flags;
* classes with a name, as escapes such as `\d`, `\w`, `\s` and `\pL` or in brackets as `[[:alpha:]]`;
* all other escaped letters and digits but `\n`, `\b` and `\B`, such as `\t`, `\x41` and `\A`.

A text is read as the inside of a bracket that stands alone. It may close this bracket and leave the
last of its own to be closed instead, as in `a)|(b`. Then it has several branches side by side.
-/

namespace Calculator

namespace Pattern

structure Reading where
  pattern : Pattern
  depth : Nat

namespace Reading

/-- Two or more readings lie one level deeper than the text that they make up. -/
def depthOf : List Reading → Nat
  | [] => 0
  | [reading] => reading.depth
  | readings => readings.foldl (fun depth reading => max depth reading.depth) 0 + 1

def join (assemble : List Pattern → Pattern) (readings : List Reading) : Reading :=
  ⟨assemble (readings.map pattern), depthOf readings⟩

def wrap (wrapper : Pattern → Pattern) (reading : Reading) : Reading :=
  ⟨wrapper reading.pattern, reading.depth + 1⟩

end Reading

/-- A group that is being read: its finished alternatives and the items of the one in progress, the
last read first. The bracket around the whole text has no number. -/
structure OpenGroup where
  number : Option Nat
  finished : List Reading
  items : List Reading

namespace OpenGroup

def start (number : Option Nat) : OpenGroup := ⟨number, [], []⟩

def add (group : OpenGroup) (item : Reading) : OpenGroup :=
  { group with items := item :: group.items }

def nextAlternative (group : OpenGroup) : OpenGroup :=
  { group with finished := .join sequence group.items.reverse :: group.finished, items := [] }

def branches (group : OpenGroup) : List Reading := group.nextAlternative.finished.reverse

def close (group : OpenGroup) : Reading :=
  (Reading.join choice group.branches).wrap fun body =>
    match group.number with
    | none => body
    | some number => .group number body

end OpenGroup

/-- What the next character of the text belongs to. -/
inductive Place
  | item (afterRepetition : Bool)
  | escape
  | bracket (state : Bracket.State)

structure ReadState where
  inner : OpenGroup
  outer : List OpenGroup
  nextGroup : Nat
  place : Place

namespace ReadState

def start (firstGroup : Nat) : ReadState :=
  ⟨.start none, [.start none], firstGroup, .item false⟩

def add (state : ReadState) (item : Reading) : ReadState :=
  { state with inner := state.inner.add item, place := .item false }

def addChar (state : ReadState) (c : Char) : ReadState := state.add ⟨char c, 0⟩

def addBorder (state : ReadState) (condition : Border) : ReadState :=
  state.add ⟨.border condition, 0⟩

def repeatLast (state : ReadState) (repetition : Pattern → Pattern) : Option ReadState :=
  match state.inner.items with
  | [] => none
  | item :: items =>
      some { state with inner.items := item.wrap repetition :: items, place := .item true }

def openGroup (state : ReadState) : ReadState :=
  ⟨.start (some state.nextGroup), state.inner :: state.outer, state.nextGroup + 1, .item false⟩

def closeGroup (state : ReadState) : Option ReadState :=
  match state.outer with
  | [] => none
  | around :: outer =>
      some { state with inner := around.add state.inner.close, outer, place := .item false }

def addItem (state : ReadState) (afterRepetition : Bool) : Char → Option ReadState
  | '(' => some state.openGroup
  | ')' => state.closeGroup
  | '|' => some { state with inner := state.inner.nextAlternative, place := .item false }
  | '*' => state.repeatLast star
  | '+' => state.repeatLast plus
  | '?' => if afterRepetition then none else state.repeatLast optional
  | '[' => some { state with place := .bracket .start }
  | '\\' => some { state with place := .escape }
  | c => if c ∈ ['.', '^', '$', '\x7b'] then none else some (state.addChar c)

def addEscaped (state : ReadState) : Char → Option ReadState
  | 'b' => some (state.addBorder .boundary)
  | 'B' => some (state.addBorder .noBoundary)
  | '<' => some (state.addBorder .wordStart)
  | '>' => some (state.addBorder .wordEnd)
  | c => (unescape c).map state.addChar

def advanceBracket (state : ReadState) : Bracket.Progress → ReadState
  | .inside bracket => { state with place := .bracket bracket }
  | .complete accepted => state.add ⟨.oneOf accepted, 1⟩

def step (state : ReadState) (c : Char) : Option ReadState :=
  match state.place with
  | .item afterRepetition => state.addItem afterRepetition c
  | .escape => state.addEscaped c
  | .bracket bracket => (bracket.step c).map state.advanceBracket

def finish (state : ReadState) : Option (List Reading) :=
  match state.place, state.outer with
  | .item _, [] => some state.inner.branches
  | _, _ => none

end ReadState

/-- The branches that a text describes between brackets. Its groups are numbered from a given number
on, of which a text needs no more than it has characters. -/
def read? (firstGroup : Nat) (text : List Char) : Option (List Reading) :=
  ((text ++ [')']).foldlM ReadState.step (.start firstGroup)).bind ReadState.finish

end Pattern

end Calculator

import Calculator.Pattern.CharClass

/-!
Character classes written in brackets: characters, ranges, classes within classes, `^` for all other
characters, and the operators `&&`, `--` and `~~` between the members on their left and those on
their right. A class is read one character at a time. Classes with a name are refused.
-/

namespace Calculator

def isEscapable (c : Char) : Bool :=
  c.toNat < 128 && !c.isAlphanum && c != '<' && c != '>'

def unescape (c : Char) : Option Char :=
  if c = 'n' then some '\n' else if isEscapable c then some c else none

namespace Bracket

/-- A class that is not closed yet. `outcome` applies the operator on the left of the members. -/
structure Level where
  negated : Bool
  outcome : CharClass → CharClass
  members : CharClass

namespace Level

def start : Level := ⟨false, id, .empty⟩

def add (level : Level) (low high : Char) : Level :=
  { level with members := (CharClass.between low high).union level.members }

def whole (level : Level) : CharClass := level.outcome level.members

def operate (level : Level) (operator : CharClass → CharClass → CharClass) : Level :=
  { level with outcome := operator level.whole, members := .empty }

def close (level : Level) : CharClass :=
  if level.negated then level.whole.complement else level.whole

end Level

/-- What the last character of an open class leaves undecided. After `single` a dash makes a range,
after `joined` it has done so, and `doubling` is an operator if the same character follows. -/
inductive Spot
  | opened
  | leading (dashed : Bool)
  | ready
  | single (c : Char)
  | doubling (c : Char)
  | joined (low : Char)
  | escaped (low : Option Char)

/-- The classes that are being read, the innermost apart from those around it. -/
structure State where
  inner : Level
  outer : List Level
  spot : Spot

inductive Progress
  | inside (state : State)
  | complete (accepted : CharClass)

namespace State

def start : State := ⟨.start, [], .opened⟩

def moveTo (state : State) (spot : Spot) : Progress := .inside { state with spot := spot }

def add (state : State) (low high : Char) : State :=
  { state with inner := state.inner.add low high, spot := .ready }

def operate (state : State) (c : Char) : Progress :=
  let operator := if c = '&' then CharClass.inter else if c = '-' then .diff else .symmDiff
  .inside { state with inner := state.inner.operate operator, spot := .ready }

def close (state : State) : Progress :=
  match state.outer with
  | [] => .complete state.inner.close
  | level :: outer =>
      .inside ⟨{ level with members := state.inner.close.union level.members }, outer, .ready⟩

def begin (state : State) (c : Char) : Progress :=
  if c = '[' then .inside ⟨.start, state.inner :: state.outer, .opened⟩
  else if c = ']' then state.close
  else if c = '\\' then state.moveTo (.escaped none)
  else if c ∈ ['&', '-', '~'] then state.moveTo (.doubling c)
  else state.moveTo (.single c)

/-- Dashes and then a closing bracket stand for themselves in front of all other members. -/
def lead (state : State) (dashed : Bool) (c : Char) : Progress :=
  if c = '-' then (state.add '-' '-').moveTo (.leading true)
  else if c = ']' ∧ !dashed then .inside (state.add ']' ']')
  else state.begin c

def continueSingle (state : State) (single c : Char) : Progress :=
  if c = '-' then state.moveTo (.joined single) else (state.add single single).begin c

def addRange (state : State) (low high : Char) : Option Progress :=
  if low ≤ high then some (.inside (state.add low high)) else none

/-- A dash makes no range in front of a closing bracket or of another dash. -/
def continueJoined (state : State) (low c : Char) : Option Progress :=
  if c = ']' then some ((state.add low low).add '-' '-').close
  else if c = '-' then some ((state.add low low).operate '-')
  else if c = '\\' then some (state.moveTo (.escaped (some low)))
  else state.addRange low c

def step (state : State) (c : Char) : Option Progress :=
  match state.spot with
  | .opened =>
      if c = '^' then
        some (.inside { state with inner.negated := true, spot := .leading false })
      -- A colon would begin the name of a class.
      else if c = ':' && !state.outer.isEmpty then none
      else some (state.lead false c)
  | .leading dashed => some (state.lead dashed c)
  | .ready => some (state.begin c)
  | .single single => some (state.continueSingle single c)
  | .doubling first => some (if c = first then state.operate c else state.continueSingle first c)
  | .joined low => state.continueJoined low c
  | .escaped none => (unescape c).map fun c => state.moveTo (.single c)
  | .escaped (some low) => (unescape c).bind fun high => state.addRange low high

end State

end Bracket

end Calculator

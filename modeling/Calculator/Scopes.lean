import Calculator.Number.Fault
import Calculator.Syntax.Basic

/-!
What names stand for: a stack of frames, searched from the innermost outwards. The outermost frame
is the global one and always exists.
-/

namespace Calculator

inductive Binding (V : Type)
  | number (value : V)
  | function (definition : Definition)

/-- The bindings of one frame; a name occurs once. -/
abbrev Frame (V : Type) := List (String × Binding V)

namespace Frame

variable {V : Type}

def insert (frame : Frame V) (name : String) (binding : Binding V) : Frame V :=
  (name, binding) :: frame.filter fun entry => entry.1 != name

theorem lookup_filter_ne (frame : Frame V) {name other : String} (different : other ≠ name) :
    (frame.filter fun entry => entry.1 != name).lookup other = frame.lookup other := by
  induction frame with
  | nil => rfl
  | cons entry frame ih =>
    obtain ⟨key, binding⟩ := entry
    by_cases same : key = name
    · subst same
      have unequal : (other == key) = false := by simpa using different
      simp [ih, List.lookup_cons, unequal]
    · simp [same, ih, List.lookup_cons]

theorem lookup_insert (frame : Frame V) (name other : String) (binding : Binding V) :
    (frame.insert name binding).lookup other =
      if other = name then some binding else frame.lookup other := by
  by_cases same : other = name
  · subst same
    simp [insert]
  · have unequal : (other == name) = false := by simpa using same
    simp [insert, List.lookup_cons, unequal, same, lookup_filter_ne frame same]

end Frame

structure Scopes (V : Type) where
  innermost : Frame V
  enclosing : List (Frame V)

namespace Scopes

variable {V : Type}

def start : Scopes V := ⟨[], []⟩

def depth (scopes : Scopes V) : Nat := scopes.enclosing.length + 1

/-- The frames from the innermost outwards. -/
def frames (scopes : Scopes V) : List (Frame V) := scopes.innermost :: scopes.enclosing

def push (scopes : Scopes V) : Scopes V := ⟨[], scopes.innermost :: scopes.enclosing⟩

/-- Takes the innermost frame off, unless it is the global one. -/
def pop? (scopes : Scopes V) : Option (Frame V × Scopes V) :=
  match scopes.enclosing with
  | [] => none
  | frame :: enclosing => some (scopes.innermost, ⟨frame, enclosing⟩)

def pop (scopes : Scopes V) : Scopes V :=
  match scopes.pop? with
  | some (_, outer) => outer
  | none => scopes

def define (scopes : Scopes V) (name : String) (binding : Binding V) : Scopes V :=
  { scopes with innermost := scopes.innermost.insert name binding }

def clear (scopes : Scopes V) : Scopes V := { scopes with innermost := [] }

def local? (scopes : Scopes V) (name : String) : Option (Binding V) :=
  scopes.innermost.lookup name

def find? (scopes : Scopes V) (name : String) : Option (Binding V) :=
  (scopes.innermost :: scopes.enclosing).findSome? fun frame => frame.lookup name

def lookup (scopes : Scopes V) (name : String) : Except Fault (Binding V) :=
  match scopes.find? name with
  | some binding => .ok binding
  | none => .error (.unbound name)

theorem pop_push (scopes : Scopes V) : scopes.push.pop = scopes := rfl

theorem pop_of_enclosing {scopes later : Scopes V}
    (same : later.enclosing = scopes.push.enclosing) : later.pop = scopes := by
  have frames : later.enclosing = scopes.innermost :: scopes.enclosing := same
  simp only [pop, pop?, frames]

theorem local?_define (scopes : Scopes V) (name other : String) (binding : Binding V) :
    (scopes.define name binding).local? other =
      if other = name then some binding else scopes.local? other :=
  scopes.innermost.lookup_insert name other binding

theorem find?_eq (scopes : Scopes V) (name : String) :
    scopes.find? name =
      match scopes.local? name with
      | some binding => some binding
      | none => scopes.enclosing.findSome? fun frame => frame.lookup name := by
  simp only [find?, local?, List.findSome?_cons]
  cases scopes.innermost.lookup name <;> rfl

theorem find?_define (scopes : Scopes V) (name other : String) (binding : Binding V) :
    (scopes.define name binding).find? other =
      if other = name then some binding else scopes.find? other := by
  rw [find?_eq, find?_eq, local?_define]
  by_cases same : other = name
  · simp [same]
  · simp only [if_neg same]
    rfl

end Scopes

end Calculator

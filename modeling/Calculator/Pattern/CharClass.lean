/-!
Sets of characters as ranges of code points. `union`, `complement` and the operations made from them
keep the ranges in ascending order and apart from each other, so that two classes built with them
are equal as soon as they hold the same characters.
-/

namespace Calculator

/-- A set of characters. Each range includes both of its ends. -/
structure CharClass where
  ranges : List (Nat × Nat)
  deriving DecidableEq, Repr

namespace CharClass

def contains (accepted : CharClass) (c : Char) : Bool :=
  accepted.ranges.any fun (low, high) => low ≤ c.toNat && c.toNat ≤ high

def ofRanges (ranges : List (Char × Char)) : CharClass :=
  ⟨ranges.map fun (low, high) => (low.toNat, high.toNat)⟩

def between (low high : Char) : CharClass := ofRanges [(low, high)]

def just (c : Char) : CharClass := between c c

def empty : CharClass := ⟨[]⟩

/-- Adds a range to ranges in ascending order and merges those that it touches. -/
def insertRange (low high : Nat) : List (Nat × Nat) → List (Nat × Nat)
  | [] => [(low, high)]
  | (first, last) :: ranges =>
      if high + 1 < first then (low, high) :: (first, last) :: ranges
      else if last + 1 < low then (first, last) :: insertRange low high ranges
      else insertRange (min low first) (max high last) ranges

def union (left right : CharClass) : CharClass :=
  ⟨left.ranges.foldr (fun (low, high) ranges => insertRange low high ranges) right.ranges⟩

def lastCodePoint : Nat := 0x10FFFF

/-- What lies between ranges in ascending order, from a code point on. -/
def gaps (start : Nat) : List (Nat × Nat) → List (Nat × Nat)
  | [] => if start ≤ lastCodePoint then [(start, lastCodePoint)] else []
  | (low, high) :: ranges =>
      if start < low then (start, low - 1) :: gaps (high + 1) ranges else gaps (high + 1) ranges

def complement (excluded : CharClass) : CharClass := ⟨gaps 0 excluded.ranges⟩

def inter (left right : CharClass) : CharClass :=
  (left.complement.union right.complement).complement

def diff (left right : CharClass) : CharClass := left.inter right.complement

def symmDiff (left right : CharClass) : CharClass := (left.diff right).union (right.diff left)

theorem contains_between (low high c : Char) :
    (between low high).contains c = (decide (low ≤ c) && decide (c ≤ high)) := by
  simp only [contains, between, ofRanges, List.map_cons, List.map_nil, List.any_cons, List.any_nil,
    Bool.or_false]
  rfl

theorem contains_just (c d : Char) : (just c).contains d = (d == c) := by
  rw [just, contains_between, Bool.eq_iff_iff]
  simp only [Bool.and_eq_true, decide_eq_true_eq, beq_iff_eq]
  constructor
  · intro bounds
    exact Char.le_antisymm bounds.2 bounds.1
  · intro same
    subst same
    exact ⟨Char.le_refl _, Char.le_refl _⟩

end CharClass

end Calculator

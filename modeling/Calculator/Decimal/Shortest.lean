import Calculator.Decimal.Binary

/-!
The shortest decimal for a binary floating-point number: of all decimals that lie between the
midpoints to the neighbouring numbers, one on the coarsest grid of multiples of a power of ten, and
there the one nearest to the number. The midpoints themselves belong to a number with an even
significand.
-/

namespace Calculator

structure Decimal where
  coefficient : Nat
  exponent : Int
  deriving DecidableEq, Repr

/-- A range of positive numbers around `value`. All three are counted in units of `2 ^ exponent`. -/
structure RoundingRange where
  low : Nat
  value : Nat
  high : Nat
  exponent : Int
  closed : Bool
  deriving DecidableEq, Repr

def tenTo (n : Nat) : Nat := Nat.pow 10 n

namespace RoundingRange

/-- The numbers that round to `significand * 2 ^ exponent`. Below a power of two the neighbour is
only half as far away. -/
def around (significand : Nat) (exponent : Int) : RoundingRange :=
  let below :=
    if significand = Binary.hiddenBit ∧ Binary.minExponent < exponent then 1 else 2
  ⟨4 * significand - below, 4 * significand, 4 * significand + 2, exponent - 2,
    significand % 2 == 0⟩

/-- What one unit of the range and one step of the grid `10 ^ place` measure in a common unit. -/
def unitOnGrid (range : RoundingRange) (place : Int) : Nat :=
  tenTo (-place).toNat <<< range.exponent.toNat

def stepOnGrid (range : RoundingRange) (place : Int) : Nat :=
  tenTo place.toNat <<< (-range.exponent).toNat

def contains (range : RoundingRange) (place : Int) (count : Nat) : Bool :=
  let point := count * range.stepOnGrid place
  let low := range.low * range.unitOnGrid place
  let high := range.high * range.unitOnGrid place
  if range.closed then low ≤ point && point ≤ high else low < point && point < high

def below (range : RoundingRange) (place : Int) : Nat :=
  range.value * range.unitOnGrid place / range.stepOnGrid place

/-- The point of a grid in the range that is nearest to the number, the upper one of two that are
equally near. -/
def nearest? (range : RoundingRange) (place : Int) : Option Nat :=
  let lower := range.below place
  let past := range.value * range.unitOnGrid place % range.stepOnGrid place
  match range.contains place lower, range.contains place (lower + 1) with
  | true, true => some (if 2 * past < range.stepOnGrid place then lower else lower + 1)
  | true, false => some lower
  | false, true => some (lower + 1)
  | false, false => none

def finestPlace (range : RoundingRange) : Int := min range.exponent 0

/-- Tries the grids from `finestPlace + steps` down. -/
def coarsest (range : RoundingRange) : (steps : Nat) → Decimal
  | 0 => ⟨range.below range.finestPlace, range.finestPlace⟩
  | steps + 1 =>
      let place := range.finestPlace + (steps + 1 : Nat)
      match range.nearest? place with
      | some count => ⟨count, place⟩
      | none => range.coarsest steps

/-- Ten to a higher power than this is above the range, since it exceeds the same power of eight. -/
def coarsestPlace (range : RoundingRange) : Nat :=
  (Nat.log2 (range.high + 1) + range.exponent + 1).toNat / 3 + 1

def shortest (range : RoundingRange) : Decimal :=
  range.coarsest (range.coarsestPlace + (-range.finestPlace).toNat)

end RoundingRange

end Calculator

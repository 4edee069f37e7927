import Mathlib.Algebra.Field.Rat
import Mathlib.Algebra.Order.Field.Basic
import Mathlib.Algebra.Order.Ring.Rat
import Mathlib.Tactic.Positivity
import Mathlib.Tactic.Ring
import Calculator.Decimal.Shortest

/-!
Rounding ranges. The shortest decimal of a floating-point number lies in the range of the numbers
that round to it, and the ranges of two numbers have nothing in common.
-/

namespace Calculator

def Decimal.value (decimal : Decimal) : ℚ := decimal.coefficient * 10 ^ decimal.exponent

namespace RoundingRange

/-- A number lies in a range. The ends belong to a closed range. -/
structure Holds (range : RoundingRange) (number : ℚ) : Prop where
  low : range.low * 2 ^ range.exponent ≤ number
  high : number ≤ range.high * 2 ^ range.exponent
  inside : range.closed = false →
    range.low * 2 ^ range.exponent < number ∧ number < range.high * 2 ^ range.exponent

section Grids

variable (range : RoundingRange) (place : Int)

/-- The common unit of a range and a grid, counted the other way round. -/
def common : ℚ := 10 ^ (-place).toNat * 2 ^ (-range.exponent).toNat

theorem common_pos : 0 < range.common place := by
  unfold common
  positivity

theorem zpow_toNat {base : ℚ} (nonzero : base ≠ 0) (n : Int) :
    base ^ n * base ^ (-n).toNat = base ^ n.toNat := by
  rw [← zpow_natCast, ← zpow_natCast, ← zpow_add₀ nonzero]
  congr 1
  omega

theorem cast_tenTo (n : Nat) : (tenTo n : ℚ) = 10 ^ n := Nat.cast_pow 10 n

theorem unitOnGrid_eq :
    (range.unitOnGrid place : ℚ) = 2 ^ range.exponent * range.common place := by
  rw [unitOnGrid, Nat.shiftLeft_eq, Nat.cast_mul, cast_tenTo, common, mul_left_comm,
    zpow_toNat two_ne_zero, Nat.cast_pow, Nat.cast_two]

theorem stepOnGrid_eq : (range.stepOnGrid place : ℚ) = 10 ^ place * range.common place := by
  rw [stepOnGrid, Nat.shiftLeft_eq, Nat.cast_mul, cast_tenTo, common, ← mul_assoc,
    zpow_toNat (by norm_num), Nat.cast_pow, Nat.cast_two]

theorem cast_onGrid (bound : Nat) : ((bound * range.unitOnGrid place : Nat) : ℚ) =
    bound * 2 ^ range.exponent * range.common place := by
  rw [Nat.cast_mul, unitOnGrid_eq, mul_assoc]

theorem cast_steps (count : Nat) : ((count * range.stepOnGrid place : Nat) : ℚ) =
    count * 10 ^ place * range.common place := by
  rw [Nat.cast_mul, stepOnGrid_eq, mul_assoc]

variable {range place}

theorem holds_of_contains {count : Nat} (found : range.contains place count = true) :
    range.Holds (count * 10 ^ place) := by
  have positive := range.common_pos place
  have apart : ∀ {m n : Nat}, (m * range.unitOnGrid place ≤ n * range.stepOnGrid place ↔
      (m : ℚ) * 2 ^ range.exponent ≤ n * 10 ^ place) := by
    intro m n
    rw [← @Nat.cast_le ℚ, cast_onGrid, cast_steps]
    exact mul_le_mul_iff_left₀ positive
  have apart' : ∀ {m n : Nat}, (n * range.stepOnGrid place ≤ m * range.unitOnGrid place ↔
      (n : ℚ) * 10 ^ place ≤ m * 2 ^ range.exponent) := by
    intro m n
    rw [← @Nat.cast_le ℚ, cast_onGrid, cast_steps]
    exact mul_le_mul_iff_left₀ positive
  unfold contains at found
  simp only at found
  split at found
  · next closed =>
    simp only [Bool.and_eq_true, decide_eq_true_eq] at found
    refine ⟨apart.mp found.1, apart'.mp found.2, ?_⟩
    intro half
    rw [closed] at half
    cases half
  · simp only [Bool.and_eq_true, decide_eq_true_eq] at found
    have low := lt_of_not_ge (mt apart'.mpr (Nat.not_le.mpr found.1))
    have high := lt_of_not_ge (mt apart.mpr (Nat.not_le.mpr found.2))
    exact ⟨low.le, high.le, fun _ => ⟨low, high⟩⟩

theorem contains_of_nearest {count : Nat} (found : range.nearest? place = some count) :
    range.contains place count = true := by
  unfold nearest? at found
  simp only at found
  split at found
  · next lower upper =>
    cases found
    split
    · exact lower
    · exact upper
  · next lower _ =>
    cases found
    exact lower
  · next _ upper =>
    cases found
    exact upper
  · cases found

theorem below_finestPlace (range : RoundingRange) :
    (range.below range.finestPlace : ℚ) * 10 ^ range.finestPlace =
      range.value * 2 ^ range.exponent := by
  have positive := range.common_pos range.finestPlace
  have divides : range.stepOnGrid range.finestPlace ∣ range.unitOnGrid range.finestPlace := by
    obtain natural | negative := le_or_gt 0 range.exponent
    · have step : range.stepOnGrid range.finestPlace = 1 := by
        rw [finestPlace, min_eq_right natural, stepOnGrid, Int.toNat_zero,
          Int.toNat_of_nonpos (neg_nonpos.mpr natural)]
        rfl
      rw [step]
      exact one_dvd _
    · have place : range.finestPlace = range.exponent := min_eq_left negative.le
      rw [stepOnGrid, unitOnGrid, place, Int.toNat_of_nonpos negative.le, Nat.shiftLeft_eq, tenTo,
        Nat.shiftLeft_zero, tenTo]
      show 1 * 2 ^ (-range.exponent).toNat ∣ 10 ^ (-range.exponent).toNat
      rw [one_mul]
      exact pow_dvd_pow_of_dvd (by decide) _
  have whole := Nat.div_mul_cancel (divides.mul_left range.value)
  have scaled := congrArg (Nat.cast : Nat → ℚ) whole
  rw [cast_onGrid] at scaled
  rw [← below, cast_steps] at scaled
  exact mul_right_cancel₀ positive.ne' scaled

end Grids

section Shortest

variable {range : RoundingRange}

theorem holds_value (low : range.low < range.value) (high : range.value < range.high) :
    range.Holds (range.value * 2 ^ range.exponent) := by
  have positive : (0 : ℚ) < 2 ^ range.exponent := zpow_pos two_pos _
  have below := mul_lt_mul_of_pos_right (Nat.cast_lt (α := ℚ).mpr low) positive
  have above := mul_lt_mul_of_pos_right (Nat.cast_lt (α := ℚ).mpr high) positive
  exact ⟨below.le, above.le, fun _ => ⟨below, above⟩⟩

theorem holds_coarsest (low : range.low < range.value) (high : range.value < range.high)
    (steps : Nat) : range.Holds (range.coarsest steps).value := by
  -- Whichever grid is taken, so by induction on the grids that are left.
  induction steps with
  | zero =>
    have exact : (range.coarsest 0).value = range.value * 2 ^ range.exponent :=
      range.below_finestPlace
    rw [exact]
    exact holds_value low high
  | succ steps ih =>
    rw [coarsest]
    split
    · next count found => exact holds_of_contains (contains_of_nearest found)
    · exact ih

variable {significand : Nat} {exponent : Int}

theorem around_bounds (positive : 0 < significand) :
    (around significand exponent).low < (around significand exponent).value ∧
      (around significand exponent).value < (around significand exponent).high := by
  simp only [around]
  split <;> omega

/-- The shortest decimal of a number rounds to it. -/
theorem holds_shortest (positive : 0 < significand) :
    (around significand exponent).Holds (around significand exponent).shortest.value :=
  holds_coarsest (around_bounds positive).1 (around_bounds positive).2 _

end Shortest

section Apart

/-- A number in two ranges, one of which is counted in larger units, lies between the ends that face
each other. -/
theorem Holds.facing {range other : RoundingRange} {number : ℚ} {shift : Nat}
    (here : range.Holds number) (there : other.Holds number)
    (units : other.exponent = range.exponent + shift) :
    other.low * 2 ^ shift ≤ range.high ∧
      (range.closed = false ∨ other.closed = false → other.low * 2 ^ shift < range.high) := by
  have positive : (0 : ℚ) < 2 ^ range.exponent := zpow_pos two_pos _
  have scaled : (other.low : ℚ) * 2 ^ other.exponent =
      (other.low * 2 ^ shift : Nat) * 2 ^ range.exponent := by
    rw [units, zpow_add₀ two_ne_zero, zpow_natCast, Nat.cast_mul, Nat.cast_pow, Nat.cast_two]
    ring
  constructor
  · have between := there.low.trans here.high
    rw [scaled] at between
    exact Nat.cast_le.mp (le_of_mul_le_mul_right between positive)
  · intro half
    have between : (other.low : ℚ) * 2 ^ other.exponent < range.high * 2 ^ range.exponent := by
      obtain half | half := half
      · exact there.low.trans_lt (here.inside half).2
      · exact (there.inside half).1.trans_le here.high
    rw [scaled] at between
    exact Nat.cast_lt.mp (lt_of_mul_lt_mul_right between positive.le)

/-- A significand of at most 53 bits that uses all of them, unless the exponent is the smallest. -/
structure Canonical (significand : Nat) (exponent : Int) : Prop where
  bits : significand < 2 ^ 53
  above : Binary.minExponent ≤ exponent
  full : Binary.minExponent < exponent → 2 ^ 52 ≤ significand

variable {significand significand' : Nat} {exponent exponent' : Int} {number : ℚ}

theorem around_low (significand : Nat) (exponent : Int) :
    ((around significand exponent).low = 4 * significand - 2 ∧
        ¬ (significand = Binary.hiddenBit ∧ Binary.minExponent < exponent)) ∨
      (around significand exponent).low = 4 * significand - 1 ∧
        significand = Binary.hiddenBit ∧ Binary.minExponent < exponent := by
  unfold around
  by_cases edge : significand = Binary.hiddenBit ∧ Binary.minExponent < exponent
  · rw [if_pos edge]
    exact .inr ⟨rfl, edge⟩
  · rw [if_neg edge]
    exact .inl ⟨rfl, edge⟩

/-- Of two numbers the larger has the larger range. Where they are neighbours, one of them is odd, so
that the midpoint does not belong to both ranges. -/
theorem not_holds_both (canonical : Canonical significand exponent)
    (canonical' : Canonical significand' exponent')
    (order : exponent < exponent' ∨ exponent = exponent' ∧ significand < significand')
    (here : (around significand exponent).Holds number)
    (there : (around significand' exponent').Holds number) : False := by
  have shift : (around significand' exponent').exponent =
      (around significand exponent).exponent + (exponent' - exponent).toNat := by
    simp only [around]
    omega
  obtain ⟨le, lt⟩ := here.facing there shift
  have high : (around significand exponent).high = 4 * significand + 2 := rfl
  have odd : (around significand exponent).closed = false ↔ ¬ significand % 2 = 0 :=
    beq_eq_false_iff_ne
  have odd' : (around significand' exponent').closed = false ↔ ¬ significand' % 2 = 0 :=
    beq_eq_false_iff_ne
  have low := around_low significand' exponent'
  rw [odd, odd'] at lt
  rw [high] at le lt
  obtain ⟨bits, above, full⟩ := canonical
  have full' := canonical'.full
  simp only [Binary.hiddenBit] at low
  generalize (around significand' exponent').low = bound at le lt low
  obtain apart | ⟨rfl, next⟩ := order
  · have double : 2 ≤ 2 ^ (exponent' - exponent).toNat :=
      Nat.pow_le_pow_right two_pos (show 1 ≤ (exponent' - exponent).toNat by omega)
    have twice := Nat.mul_le_mul_left bound double
    omega
  · rw [Int.sub_self, Int.toNat_zero, Nat.pow_zero, Nat.mul_one] at le lt
    omega

theorem holds_unique (canonical : Canonical significand exponent)
    (canonical' : Canonical significand' exponent')
    (here : (around significand exponent).Holds number)
    (there : (around significand' exponent').Holds number) :
    significand = significand' ∧ exponent = exponent' := by
  by_contra differ
  have order : (exponent < exponent' ∨ exponent = exponent' ∧ significand < significand') ∨
      exponent' < exponent ∨ exponent' = exponent ∧ significand' < significand := by omega
  obtain order | order := order
  · exact not_holds_both canonical canonical' order here there
  · exact not_holds_both canonical' canonical order there here

end Apart

end RoundingRange

end Calculator

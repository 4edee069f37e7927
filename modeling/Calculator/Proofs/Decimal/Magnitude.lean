import Calculator.Proofs.Decimal.ReadBack

/-!
Where the point of a decimal stands, and which numbers are written with a point. The layout looks at
the shortest decimal of a number, yet whether a power of ten is written depends on the number alone:
between a number and its shortest decimal there is no bound of the layout but these two.
-/

namespace Calculator

namespace Decimal

/-- How many digits a decimal has in front of its point. A negative number counts the zeros right
behind the point. -/
def pointPlace (decimal : Decimal) : Int :=
  (natText decimal.coefficient).length + decimal.exponent

theorem value_lt_iff {decimal : Decimal} (positive : 0 < decimal.coefficient) (place : Int) :
    decimal.value < 10 ^ place ↔ decimal.pointPlace ≤ place := by
  have ten : (0 : ℚ) < 10 ^ decimal.exponent := by positivity
  have split : (10 : ℚ) ^ place = 10 ^ (place - decimal.exponent) * 10 ^ decimal.exponent := by
    rw [← zpow_add₀ (by norm_num), sub_add_cancel]
  rw [value, split, mul_lt_mul_iff_left₀ ten, pointPlace]
  obtain ahead | behind := lt_or_ge decimal.exponent place
  · obtain ⟨count, apart⟩ := Int.eq_ofNat_of_zero_le (show 0 ≤ place - decimal.exponent by omega)
    have room : 0 < count := by omega
    calc (decimal.coefficient : ℚ) < 10 ^ (place - decimal.exponent)
        ↔ decimal.coefficient < 10 ^ count := by
          rw [apart, zpow_natCast]
          exact_mod_cast Iff.rfl
      _ ↔ (natText decimal.coefficient).length ≤ count :=
          (Nat.length_toDigits_le_iff (by decide) room).symm
      _ ↔ (natText decimal.coefficient).length + decimal.exponent ≤ place := by omega
  · have digits := List.length_pos_iff.mpr (natText_ne_nil decimal.coefficient)
    have small : (10 : ℚ) ^ (place - decimal.exponent) ≤ 1 :=
      zpow_le_one_of_nonpos₀ (by norm_num) (by omega)
    have least : (1 : ℚ) ≤ decimal.coefficient := by exact_mod_cast positive
    have beyond : ¬ (decimal.coefficient : ℚ) < 10 ^ (place - decimal.exponent) :=
      not_lt.mpr (small.trans least)
    simp only [beyond, false_iff]
    omega

end Decimal

namespace RoundingRange

variable {range : RoundingRange} {significand : Nat} {exponent : Int} {bound number : ℚ}

theorem Holds.between {low high : ℚ} (below : range.Holds low) (above : range.Holds high)
    (le : low ≤ number) (le' : number ≤ high) : range.Holds number where
  low := below.low.trans le
  high := le'.trans above.high
  inside half := ⟨(below.inside half).1.trans_le le, le'.trans_lt (above.inside half).2⟩

theorem around_value (significand : Nat) (exponent : Int) :
    ((around significand exponent).value : ℚ) * 2 ^ (around significand exponent).exponent =
      significand * 2 ^ exponent := by
  have split : (2 : ℚ) ^ exponent = 2 ^ (exponent - 2) * 4 := by
    rw [zpow_sub₀ two_ne_zero]
    norm_num
  simp only [around, split]
  push_cast
  ring

theorem holds_around (positive : 0 < significand) :
    (around significand exponent).Holds (significand * 2 ^ exponent) := by
  rw [← around_value]
  exact holds_value (around_bounds positive).1 (around_bounds positive).2

/-- A bound that is the shortest decimal of a number not below it does not separate any number from
its shortest decimal, since no other range contains the bound. -/
theorem shortest_lt_iff {significand' : Nat} {exponent' : Int}
    (canonical : Canonical significand exponent) (positive : 0 < significand)
    (canonical' : Canonical significand' exponent') (positive' : 0 < significand')
    (spelled : (around significand' exponent').shortest.value = bound)
    (above : bound ≤ significand' * 2 ^ exponent') :
    (around significand exponent).shortest.value < bound ↔
      (significand : ℚ) * 2 ^ exponent < bound := by
  have here := @holds_around significand exponent positive
  have short := @holds_shortest significand exponent positive
  have there := @holds_shortest significand' exponent' positive'
  rw [spelled] at there
  by_cases inside : (around significand exponent).Holds bound
  · obtain ⟨rfl, rfl⟩ := holds_unique canonical canonical' inside there
    simp only [spelled, lt_irrefl, false_iff]
    exact not_lt.mpr above
  · constructor
    · intro less
      by_contra beyond
      exact inside (short.between here less.le (not_lt.mp beyond))
    · intro less
      by_contra beyond
      exact inside (here.between short less.le (not_lt.mp beyond))

theorem coefficient_pos (positive : 0 < significand) :
    0 < (around significand exponent).shortest.coefficient := by
  have holds := @holds_shortest significand exponent positive
  have low : 0 < (around significand exponent).low := by
    have low := around_low significand exponent
    omega
  have positive : (0 : ℚ) < (around significand exponent).low *
      2 ^ (around significand exponent).exponent :=
    mul_pos (Nat.cast_pos.mpr low) (zpow_pos two_pos _)
  apply Nat.pos_of_ne_zero
  intro zero
  have value := positive.trans_le holds.low
  rw [Decimal.value, zero, Nat.cast_zero, zero_mul] at value
  exact lt_irrefl _ value

section Layout

variable (canonical : Canonical significand exponent) (positive : 0 < significand)
include canonical positive

theorem pointPlace_lt_iff : (around significand exponent).shortest.pointPlace <
    Decimal.smallestPointPlace ↔ (significand : ℚ) * 2 ^ exponent < 10 ^ (-4 : Int) := by
  have least : (around 7378697629483821 (-66)).shortest = ⟨1, -4⟩ := by decide +kernel
  have canonical' : Canonical 7378697629483821 (-66) := ⟨by decide, by decide, by decide⟩
  have above : (10 : ℚ) ^ (-4 : Int) ≤ (7378697629483821 : Nat) * 2 ^ (-66 : Int) := by norm_num
  rw [← shortest_lt_iff canonical positive canonical' (by decide)
      (by simp [least, Decimal.value]) above, Decimal.value_lt_iff (coefficient_pos positive),
    Decimal.smallestPointPlace]
  omega

theorem pointPlace_le_iff : (around significand exponent).shortest.pointPlace ≤
    Decimal.largestPointPlace ↔ (significand : ℚ) * 2 ^ exponent < 10 ^ (16 : Int) := by
  have first : (around 5000000000000000 1).shortest = ⟨1, 16⟩ := by decide +kernel
  have canonical' : Canonical 5000000000000000 1 := ⟨by decide, by decide, by decide⟩
  have above : (10 : ℚ) ^ (16 : Int) ≤ (5000000000000000 : Nat) * 2 ^ (1 : Int) := by norm_num
  rw [← shortest_lt_iff canonical positive canonical' (by decide)
      (by simp [first, Decimal.value]) above, Decimal.value_lt_iff (coefficient_pos positive),
    Decimal.largestPointPlace]

end Layout

end RoundingRange

end Calculator

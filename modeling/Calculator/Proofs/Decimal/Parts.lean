import Mathlib
import Calculator.Decimal.Binary

/-!
Floating-point numbers and their parts. The parts decide the number, the arithmetic of floating-point
numbers sees the same parts, and an integer of 53 bits becomes the number of the same value.
-/

namespace Calculator

open Float.Model (UnpackedFloat)
open Float.Model.UnpackedFloat (Sign)

namespace Binary

/-- The number that the parts stand for, unless it is infinite or undefined. -/
def value? : Binary → Option ℚ
  | finite negative significand exponent =>
      some ((if negative then -(significand : ℚ) else significand) * 2 ^ exponent)
  | _ => none

def isNegative : Sign → Bool
  | .negative => true
  | .positive => false

/-- The parts that the arithmetic takes a number apart into. -/
def ofUnpacked : UnpackedFloat → Binary
  | .infinity sign => infinite (isNegative sign)
  | .notANumber => nan
  | .zero sign => finite (isNegative sign) 0 minExponent
  | .finite sign mantissa exponent _ => finite (isNegative sign) mantissa exponent

section Bits

variable (bits : BitVec 64)

theorem toNat_unpackMantissa :
    (@UnpackedFloat.unpackMantissa .binary64 bits).toNat = bits.toNat % hiddenBit := by
  simp only [UnpackedFloat.unpackMantissa, BitVec.toNat_cast, BitVec.extractLsb_toNat]
  rfl

theorem toNat_unpackExponent :
    (@UnpackedFloat.unpackExponent .binary64 bits).toNat =
      bits.toNat / hiddenBit % 2048 := by
  simp only [UnpackedFloat.unpackExponent, BitVec.toNat_cast, BitVec.extractLsb_toNat,
    Nat.shiftRight_eq_div_pow]
  rfl

theorem isNegative_unpackSign :
    isNegative (.ofBitVec (@UnpackedFloat.unpackSign .binary64 bits)) = bits.toNat.testBit 63 := by
  have bit : (@UnpackedFloat.unpackSign .binary64 bits).toNat =
      bits.toNat / 9223372036854775808 % 2 := by
    simp only [UnpackedFloat.unpackSign, BitVec.toNat_cast, BitVec.extractLsb_toNat,
      Nat.shiftRight_eq_div_pow]
  rw [Nat.testBit_eq_decide_div_mod_eq, Sign.ofBitVec]
  split
  · next zero =>
    rw [zero] at bit
    apply Eq.symm
    apply decide_eq_false
    simp at bit ⊢
    omega
  · next one =>
    have other : bits.toNat / 9223372036854775808 % 2 ≠ 0 := by
      rw [← bit]
      exact fun same => one (BitVec.eq_of_toNat_eq same)
    apply Eq.symm
    apply decide_eq_true
    simp
    omega

theorem toNat_significand (mantissa : BitVec 52) :
    (1#1 ++ mantissa).toNat = hiddenBit + mantissa.toNat := by
  rw [BitVec.toNat_append, ← Nat.shiftLeft_add_eq_or_of_lt mantissa.isLt]
  rfl

end Bits

theorem ofFloat_eq (x : Float) : ofFloat x = ofUnpacked x.toModel.unpack := by
  have sign := isNegative_unpackSign x.toBits.toBitVec
  have fraction := toNat_unpackMantissa x.toBits.toBitVec
  have scale := toNat_unpackExponent x.toBits.toBitVec
  show ofBits x.toBits.toBitVec.toNat =
    ofUnpacked (UnpackedFloat.unpack .binary64 x.toBits.toBitVec)
  generalize x.toBits.toBitVec = bits at sign fraction scale ⊢
  unfold ofBits UnpackedFloat.unpack
  have top : (@UnpackedFloat.unpackExponent .binary64 bits).toNat = 2047 ↔
      @UnpackedFloat.unpackExponent .binary64 bits = -1#_ := by
    rw [← BitVec.toNat_inj]
    rfl
  have bottom : (@UnpackedFloat.unpackExponent .binary64 bits).toNat = 0 ↔
      @UnpackedFloat.unpackExponent .binary64 bits = 0#_ := by
    rw [← BitVec.toNat_inj]
    rfl
  have vanishing : (@UnpackedFloat.unpackMantissa .binary64 bits).toNat = 0 ↔
      @UnpackedFloat.unpackMantissa .binary64 bits = 0#_ := by
    rw [← BitVec.toNat_inj]
    rfl
  have bias : (Float.Model.Format.binary64.exponentBias : Int) = 1023 := rfl
  simp only [← sign, ← fraction, ← scale, top, bottom, vanishing]
  split
  · split
    · rfl
    · rfl
  · split
    · next zero =>
      rw [bottom.mpr zero, bias]
      split
      · next empty =>
        rw [empty]
        rfl
      · rfl
    · next positive =>
      rw [← bottom] at positive
      simp only [ofUnpacked, toNat_significand, minExponent, bias]
      congr 1
      omega

def bits : Binary → Nat
  | nan => 0
  | infinite negative => negative.toNat * 9223372036854775808 + 2047 * hiddenBit
  | finite negative significand exponent =>
      negative.toNat * 9223372036854775808 +
        if significand < hiddenBit then significand
        else (exponent + 1074).toNat * hiddenBit + significand

theorem bits_ofBits {word : Nat} (low : word < 18446744073709551616) (defined : ofBits word ≠ nan) :
    (ofBits word).bits = word := by
  have sign : (word.testBit 63).toNat = word / 9223372036854775808 := by
    have one : word / 9223372036854775808 < 2 := by omega
    rw [Nat.toNat_testBit]
    exact Nat.mod_eq_of_lt one
  have fraction := Nat.mod_lt word (show 0 < hiddenBit by decide)
  unfold ofBits at defined ⊢
  simp only at defined ⊢
  split at defined
  · next top =>
    split at defined
    · next empty =>
      simp only [if_pos top, if_pos empty, bits, sign]
      simp only [hiddenBit] at top empty ⊢
      omega
    · exact absurd rfl defined
  · next top =>
    rw [if_neg top]
    split
    · next bottom =>
      simp only [bits, sign, if_pos fraction]
      simp only [hiddenBit] at bottom ⊢
      omega
    · next bottom =>
      simp only [bits, sign, minExponent]
      rw [if_neg (by omega)]
      simp only [hiddenBit] at bottom ⊢
      omega

theorem ofFloat_inj {x y : Float} (defined : ofFloat x ≠ nan) (same : ofFloat x = ofFloat y) :
    x = y := by
  obtain ⟨⟨word, valid⟩⟩ := x
  obtain ⟨⟨word', valid'⟩⟩ := y
  have equal : word = word' := by
    apply UInt64.toNat.inj
    calc word.toNat
      _ = (ofBits word.toNat).bits := (bits_ofBits word.toNat_lt defined).symm
      _ = (ofBits word'.toNat).bits := congrArg bits same
      _ = word'.toNat := bits_ofBits word'.toNat_lt fun undefined => defined (same.trans undefined)
  subst equal
  rfl

/-! A number with 53 bits in its significand survives being packed, and rounding leaves it alone. -/

section Exact

open Float.Model.UnpackedFloat
open Float.Model (Format totalExponent)

variable {significand : Nat}

theorem log2_significand (low : 2 ^ 52 ≤ significand) (high : significand < 2 ^ 53) :
    significand.log2 = 52 := by
  rw [Nat.log2_eq_iff (by omega)]
  exact ⟨low, high⟩

theorem totalExponent_shifted (low : 2 ^ 52 ≤ significand) (high : significand < 2 ^ 53)
    (exponent : Int) (count : Nat) :
    totalExponent (significand * 2 ^ count) (exponent - count) = exponent + 53 := by
  have log : (significand * 2 ^ count).log2 = 52 + count := by
    rw [Nat.log2_eq_iff (by positivity), Nat.add_right_comm, Nat.pow_add, Nat.pow_add 2 (52 + 1)]
    have positive := Nat.two_pow_pos count
    exact ⟨Nat.mul_le_mul_right _ low, Nat.mul_lt_mul_of_pos_right high positive⟩
  rw [totalExponent, log]
  omega

theorem targetExponent_of_fits {exponent : Int} (fits : minExponent ≤ exponent) :
    Format.binary64.targetExponent (exponent + 53) = exponent := by
  have lowest : Format.binary64.minExponent = minExponent := rfl
  have digits : Format.binary64.mantissaBits = 53 := rfl
  rw [Format.targetExponent, lowest, digits]
  omega

theorem shiftRight_exact (significand count : Nat) :
    (ExtendedMantissa.mk (significand * 2 ^ count) false false) >>> count =
      ExtendedMantissa.mk significand false false := by
  show count.repeat ExtendedMantissa.shiftRightOne _ = _
  -- The last of the zeros that are dropped belongs to the double.
  induction count generalizing significand with
  | zero => simp [Nat.repeat]
  | succ count ih =>
    have double : significand * 2 ^ (count + 1) = significand * 2 * 2 ^ count := by
      rw [Nat.pow_succ', Nat.mul_assoc]
    rw [Nat.repeat, double, ih]
    simp [ExtendedMantissa.shiftRightOne]

theorem shiftToTargetExponent_exact (low : 2 ^ 52 ≤ significand) (high : significand < 2 ^ 53)
    {exponent : Int} (fits : minExponent ≤ exponent) (count : Nat) :
    shiftToTargetExponent .binary64 (significand * 2 ^ count) (exponent - count) .exact =
      (ExtendedMantissa.mk significand false false, exponent) := by
  simp only [shiftToTargetExponent, shiftToExponent, ExtendedMantissa.ofMantissaAndAccuracy,
    totalExponent_shifted low high, targetExponent_of_fits fits, sub_sub_cancel, Int.toNat_natCast,
    shiftRight_exact, sub_add_cancel]

theorem roundWithAccuracy_exact (sign : Sign) (low : 2 ^ 52 ≤ significand)
    (high : significand < 2 ^ 53) {exponent : Int} (fits : minExponent ≤ exponent) (count : Nat) :
    roundWithAccuracy .binary64 sign (significand * 2 ^ count) (exponent - count) .exact =
      .finite sign significand exponent (by omega) := by
  have again := shiftToTargetExponent_exact low high fits 0
  rw [Nat.pow_zero, Nat.mul_one, Nat.cast_zero, sub_zero] at again
  simp only [roundWithAccuracy, shiftToTargetExponent_exact low high fits]
  simp only [ExtendedMantissa.roundedMantissa, ExtendedMantissa.accuracy,
    Accuracy.roundToNearestEven, again]
  rw [dif_neg (by omega)]

theorem unpackSign_packComponents (sign : Sign) (exponent : BitVec 11) (mantissa : BitVec 52) :
    Sign.ofBitVec (unpackSign (packComponents .binary64 sign exponent mantissa)) = sign := by
  have bit : unpackSign (packComponents .binary64 sign exponent mantissa) = sign.toBitVec := by
    ext i low
    have first : i = 0 := by omega
    subst first
    have top : (sign.toBitVec ++ exponent ++ mantissa).getLsbD 63 = sign.toBitVec.getLsbD 0 := by
      rw [BitVec.getLsbD_append, if_neg (by decide), BitVec.getLsbD_append, if_neg (by decide)]
    simp only [unpackSign, packComponents, BitVec.cast_eq, BitVec.getElem_extract, Nat.add_zero]
    exact top
  rw [bit]
  cases sign with
  | negative => rfl
  | positive => rfl

theorem unpack_pack (sign : Sign) (low : 2 ^ 52 ≤ significand) (high : significand < 2 ^ 53)
    {exponent : Int} (above : minExponent ≤ exponent) (below : exponent ≤ 971) :
    (Float.Model.pack (.finite sign significand exponent (by omega))).unpack =
      .finite sign significand exponent (by omega) := by
  have bias : (Format.binary64.exponentBias : Int) = 1023 := rfl
  have digits : Format.binary64.mantissaBits = 53 := rfl
  simp only [minExponent] at above
  have packed : pack .binary64 (.finite sign significand exponent (by omega)) =
      packComponents .binary64 sign (BitVec.ofNat 11 (exponent + 1075).toNat)
        (BitVec.ofNat 52 significand) := by
    unfold pack
    simp only [log2_significand low high, bias, digits, if_true]
    rw [if_neg (by omega)]
    congr 3
    omega
  show unpack .binary64 (pack .binary64 _) = _
  have scale : (BitVec.ofNat 11 (exponent + 1075).toNat).toNat = (exponent + 1075).toNat := by
    rw [BitVec.toNat_ofNat]
    omega
  have fraction : (BitVec.ofNat 52 significand).toNat = significand - 2 ^ 52 := by
    rw [BitVec.toNat_ofNat]
    omega
  rw [packed, unpack]
  simp only [unpackMantissa_packComponents, unpackExponent_packComponents,
    unpackSign_packComponents, bias]
  rw [if_neg, if_neg]
  · congr 1
    · rw [toNat_significand, fraction]
      simp only [hiddenBit]
      omega
    · rw [scale]
      omega
  · intro zero
    rw [zero] at scale
    simp at scale
    omega
  · intro top
    rw [top] at scale
    simp at scale
    omega

theorem exists_full {n : Nat} (positive : 0 < n) (small : n < 2 ^ 53) :
    ∃ count ≤ 52, n.log2 + count = 52 ∧ 2 ^ 52 ≤ n * 2 ^ count ∧ n * 2 ^ count < 2 ^ 53 := by
  obtain ⟨low, high⟩ := (Nat.log2_eq_iff (Nat.pos_iff_ne_zero.mp positive)).mp rfl
  have log : n.log2 < 53 := (Nat.log2_lt (Nat.pos_iff_ne_zero.mp positive)).mpr small
  have positive := Nat.two_pow_pos (52 - n.log2)
  have lower := Nat.mul_le_mul_right (2 ^ (52 - n.log2)) low
  have upper := Nat.mul_lt_mul_of_pos_right high positive
  rw [← Nat.pow_add] at lower upper
  rw [show n.log2 + (52 - n.log2) = 52 by omega] at lower
  rw [show n.log2 + 1 + (52 - n.log2) = 53 by omega] at upper
  exact ⟨52 - n.log2, by omega, by omega, lower, upper⟩

section Natural

variable {n count : Nat} (log : n.log2 + count = 52) (low : 2 ^ 52 ≤ n * 2 ^ count)
  (high : n * 2 ^ count < 2 ^ 53)
include log low high

theorem round_natural :
    round .binary64 .positive n 0 =
      .finite .positive (n * 2 ^ count) (-count : Int) (by omega) := by
  have fits : minExponent ≤ (-count : Int) := by
    simp only [minExponent]
    omega
  have total : totalExponent n 0 = (-count : Int) + 53 := by
    rw [totalExponent]
    omega
  have exact := roundWithAccuracy_exact .positive low high fits 0
  rw [Nat.pow_zero, Nat.mul_one, Nat.cast_zero, sub_zero] at exact
  simp only [UnpackedFloat.round, decreaseExponent, total, targetExponent_of_fits fits, zero_sub, neg_neg,
    Int.toNat_natCast, Nat.shiftLeft_eq]
  exact exact

theorem mul_one_natural :
    mul .binary64 (.finite .positive (n * 2 ^ count) (-count : Int) (by omega))
        (.finite .positive (2 ^ 52) (-52) (by decide)) =
      .finite .positive (n * 2 ^ count) (-count : Int) (by omega) :=
  roundWithAccuracy_exact .positive low high (by simp only [minExponent]; omega) 52

theorem unpack_pack_natural (sign : Sign) :
    (Float.Model.pack (.finite sign (n * 2 ^ count) (-count : Int) (by omega))).unpack =
      .finite sign (n * 2 ^ count) (-count : Int) (by omega) :=
  unpack_pack sign low high (by simp only [minExponent]; omega) (by omega)

theorem unpack_natural (positive : 0 < n) (small : n < 2 ^ 53) :
    (Float.ofNat n).toModel.unpack =
      .finite .positive (n * 2 ^ count) (-count : Int) (by omega) := by
  have fast : Float.ofNat n = n.toUInt64.toFloat *
      Float.exactlyRepresentablePowersOfTen[0] := by
    show Float.ofScientific n false 0 = _
    rw [Float.ofScientific, dif_pos ⟨small, by decide⟩]
    rfl
  have one : (Float.exactlyRepresentablePowersOfTen[0]).toModel.unpack =
      .finite .positive (2 ^ 52) (-52) (by decide) := rfl
  have whole : n.toUInt64.toFloat.toModel =
      .pack (.finite .positive (n * 2 ^ count) (-count : Int) (by omega)) := by
    have same : n.toUInt64.toNat = n := UInt64.toNat_ofNat_of_lt' (Nat.lt_trans small (by decide))
    have above : compare (n : Int) 0 = .gt := Int.compare_eq_gt.mpr (Int.natCast_pos.mpr positive)
    show Float.Model.pack (normalize .binary64 (n.toUInt64.toNat : Int) 0 .positive) = _
    rw [same, UnpackedFloat.normalize, above]
    exact congrArg Float.Model.pack (round_natural log low high)
  rw [fast]
  show (Float.Model.pack (mul .binary64 n.toUInt64.toFloat.toModel.unpack _)).unpack = _
  rw [one, whole, unpack_pack_natural log low high, mul_one_natural log low high,
    unpack_pack_natural log low high]

end Natural

end Exact

theorem value?_scaled (negative : Bool) (n count : Nat) :
    (finite negative (n * 2 ^ count) (-count : Int)).value? =
      some (if negative then -(n : ℚ) else n) := by
  have scaled : ((n * 2 ^ count : Nat) : ℚ) * 2 ^ (-count : Int) = n := by
    rw [Nat.cast_mul, Nat.cast_pow, zpow_neg, zpow_natCast]
    exact mul_inv_cancel_right₀ (pow_ne_zero count two_ne_zero) _
  cases negative with
  | false => simp only [value?, Bool.false_eq_true, if_false, scaled]
  | true => simp only [value?, if_true, neg_mul, scaled]

theorem value?_ofInt {n : Int} (small : n.natAbs < 2 ^ 53) :
    (ofFloat (Float.ofInt n)).value? = some (n : ℚ) := by
  obtain zero | positive := Nat.eq_zero_or_pos n.natAbs
  · have parts : ofFloat (Float.ofInt 0) = finite false 0 minExponent := by
      decide +kernel
    rw [Int.natAbs_eq_zero.mp zero, parts]
    simp [value?]
  · obtain ⟨count, _, log, low, high⟩ := exists_full positive small
    have magnitude := unpack_natural log low high positive small
    cases n with
    | ofNat n =>
      have parts : ofFloat (Float.ofInt (.ofNat n)) =
          finite false (n * 2 ^ count) (-count : Int) := by
        show ofFloat (Float.ofNat n) = _
        rw [ofFloat_eq]
        exact congrArg ofUnpacked magnitude
      rw [parts, value?_scaled]
      rfl
    | negSucc n =>
      have parts : ofFloat (Float.ofInt (.negSucc n)) =
          finite true ((n + 1) * 2 ^ count) (-count : Int) := by
        rw [ofFloat_eq]
        show ofUnpacked (Float.Model.pack (Float.ofNat (n + 1)).toModel.unpack.neg).unpack = _
        rw [show (Float.ofNat (n + 1)).toModel.unpack = _ from magnitude]
        exact congrArg ofUnpacked (unpack_pack_natural log low high .negative)
      rw [parts, value?_scaled]
      simp [Int.negSucc_eq]

end Binary

end Calculator

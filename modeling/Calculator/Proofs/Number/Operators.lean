import Mathlib.Algebra.Order.Ring.Int
import Mathlib.Algebra.Ring.Parity
import Mathlib.Data.Int.Bitwise
import Calculator.Number.Integer
import Calculator.Proofs.Number.Reading

/-!
Operators on 64-bit integers against the mathematical ones. Wherever an operator is defined on its
operands its result is the mathematical one, and an operation fails for the reasons listed here and
for no other.
-/

namespace Calculator

def Fits (n : Int) : Prop := -2 ^ 63 ≤ n ∧ n < 2 ^ 63

theorem int64?_eq_some {n : Int} {value : Int64} : int64? n = some value ↔ value.toInt = n := by
  constructor
  · exact toInt_of_int64?
  · intro same
    rw [← same, int64?_toInt]

theorem int64?_eq_none {n : Int} : int64? n = none ↔ ¬ Fits n := by
  rw [← Option.not_isSome_iff_eq_none, int64?_isSome, Fits]
  omega

theorem fits_toInt (n : Int64) : Fits n.toInt := ⟨n.le_toInt, n.toInt_lt⟩

namespace BinaryOp

/-- What an operator means for integers of any size. The bits of an integer are those of its two's
complement, which goes on without end to the left. -/
def Means (op : BinaryOp) (a b result : Int) : Prop :=
  match op with
  | equal => result = if a = b then 1 else 0
  | notEqual => result = if a ≠ b then 1 else 0
  | less => result = if a < b then 1 else 0
  | greater => result = if a > b then 1 else 0
  | lessEqual => result = if a ≤ b then 1 else 0
  | greaterEqual => result = if a ≥ b then 1 else 0
  | bitOr => ∀ i, result.testBit i = (a.testBit i || b.testBit i)
  | bitXor => ∀ i, result.testBit i = (a.testBit i ^^ b.testBit i)
  | bitAnd => ∀ i, result.testBit i = (a.testBit i && b.testBit i)
  | shiftLeft => result = (a * 2 ^ b.toNat).bmod (2 ^ 64)
  | shiftRight => result = a.fdiv (2 ^ b.toNat)
  | add => result = a + b
  | sub => result = a - b
  | mul => result = a * b
  | div => result = a.tdiv b
  | pow => result = a ^ b.toNat

def refusal? (op : BinaryOp) (b : Int64) : Option Fault :=
  match op with
  | div => if b.toInt = 0 then some .divisionByZero else none
  | pow => if b.toInt < 0 then some (.negativeExponent b) else none
  | shiftLeft | shiftRight =>
      if 0 ≤ b.toInt ∧ b.toInt < 64 then none else some (.invalidShift b)
  | _ => none

def unbounded : List BinaryOp := [add, sub, mul, div, pow]

/-- An outcome is the mathematical result, or the reason why there is none of 64 bits. -/
structure Obeys (op : BinaryOp) (a b : Int64) (outcome : Except Fault Int64) : Prop where
  exact : ∀ result, outcome = .ok result ↔
    op.refusal? b = none ∧ op.Means a.toInt b.toInt result.toInt
  refused : ∀ fault, outcome = .error fault ↔
    op.refusal? b = some fault ∨
      op.refusal? b = none ∧ fault = .overflow op ∧ op ∈ unbounded ∧
        ∃ result, op.Means a.toInt b.toInt result ∧ ¬ Fits result

end BinaryOp

section Bits

/-- Integers with the same bits are equal. Far to the left the bits tell the sign. -/
theorem eq_of_testBit {a b : Int} (same : ∀ i, a.testBit i = b.testBit i) : a = b := by
  have differ : ∀ n m : Nat, ¬ ∀ i, n.testBit i = !m.testBit i := by
    intro n m same
    have far := same (n + m)
    have low : n.testBit (n + m) = false :=
      Nat.testBit_lt_two_pow (Nat.lt_of_le_of_lt (Nat.le_add_right n m) Nat.lt_two_pow_self)
    have low' : m.testBit (n + m) = false :=
      Nat.testBit_lt_two_pow (Nat.lt_of_le_of_lt (Nat.le_add_left m n) Nat.lt_two_pow_self)
    rw [low, low'] at far
    cases far
  cases a with
  | ofNat n =>
    cases b with
    | ofNat m => exact congrArg Int.ofNat (Nat.eq_of_testBit_eq same)
    | negSucc m => exact absurd same (differ n m)
  | negSucc n =>
    cases b with
    | ofNat m => exact absurd (fun i => (same i).symm) (differ m n)
    | negSucc m =>
      have same : ∀ i, n.testBit i = m.testBit i := fun i => Bool.not_inj (same i)
      exact congrArg Int.negSucc (Nat.eq_of_testBit_eq same)

theorem testBit_toInt (a : Int64) (i : Nat) :
    a.toInt.testBit i = if i < 64 then a.toBitVec.getLsbD i else a.toBitVec.msb := by
  have bound : a.toBitVec.toNat < 2 ^ 64 := a.toBitVec.isLt
  rw [Int64.toInt, BitVec.toInt_eq_msb_cond]
  split
  · next negative =>
    have word : (a.toBitVec.toNat : Int) - ((2 ^ 64 : Nat) : Int) =
        Int.negSucc (2 ^ 64 - (a.toBitVec.toNat + 1)) := by
      rw [Int.negSucc_eq]
      omega
    rw [word]
    show (!(2 ^ 64 - (a.toBitVec.toNat + 1)).testBit i) = _
    rw [Nat.testBit_two_pow_sub_succ bound, BitVec.testBit_toNat, negative]
    by_cases inside : i < 64 <;> simp [inside]
  · next positive =>
    show a.toBitVec.toNat.testBit i = _
    rw [BitVec.testBit_toNat]
    by_cases inside : i < 64
    · rw [if_pos inside]
    · rw [if_neg inside, BitVec.getLsbD_of_ge _ _ (Nat.le_of_not_lt inside), eq_comm]
      exact Bool.eq_false_iff.mpr positive

end Bits

section Checked

variable {op : BinaryOp} {result : Int}

theorem checked_eq_ok {value : Int64} : checked op result = .ok value ↔ value.toInt = result := by
  rw [← int64?_eq_some, checked]
  cases int64? result <;> simp

theorem checked_eq_error {fault : Fault} :
    checked op result = .error fault ↔ fault = .overflow op ∧ ¬ Fits result := by
  rw [← int64?_eq_none, checked]
  cases int64? result <;> simp [eq_comm]

end Checked

section Powers

theorem not_fits_pow {base : Int} {count : Nat} (large : 2 ≤ base.natAbs) (many : 64 ≤ count) :
    ¬ Fits (base ^ count) := by
  intro fits
  have grows : 2 ^ 64 ≤ (base ^ count).natAbs := by
    calc 2 ^ 64
      _ ≤ 2 ^ count := Nat.pow_le_pow_right (by decide) many
      _ ≤ base.natAbs ^ count := Nat.pow_le_pow_left large count
      _ = (base ^ count).natAbs := (Int.natAbs_pow base count).symm
  have small : (base ^ count).natAbs ≤ 2 ^ 63 := by
    have low := fits.1
    have high := fits.2
    omega
  omega

theorem minusOne_pow (count : Nat) :
    (-1 : Int) ^ count = if (count : Int) % 2 = 0 then 1 else -1 := by
  rcases Nat.even_or_odd count with even | odd
  · rw [even.neg_one_pow, if_pos]
    exact_mod_cast Nat.even_iff.mp even
  · rw [odd.neg_one_pow, if_neg]
    have rest := Nat.odd_iff.mp odd
    omega

theorem lt_zero_iff {n : Int64} : n < 0 ↔ n.toInt < 0 := Int64.lt_iff_toInt_lt

theorem zero_lt_iff {n : Int64} : 0 < n ↔ 0 < n.toInt := Int64.lt_iff_toInt_lt

theorem zero_le_iff {n : Int64} : 0 ≤ n ↔ 0 ≤ n.toInt := Int64.le_iff_toInt_le

theorem power_of_neg (base : Int64) {n : Int64} (negative : n.toInt < 0) :
    power base n = .error (.negativeExponent n) := by
  have below : ¬ 0 ≤ n := by rw [zero_le_iff]; omega
  have below' : ¬ 0 < n := by rw [zero_lt_iff]; omega
  simp only [power, below, below', and_false, if_false, exponent, if_pos (lt_zero_iff.mpr negative)]
  rfl

/-- Neither the bound on exponents nor the one on counts refuses a power that fits. -/
theorem bounded_eq_checked {base n : Int64} (defined : 0 ≤ n.toInt)
    (grows : 64 < n.toInt → 2 ≤ base.toInt.natAbs) :
    (do
      let count ← exponent n
      if count ≤ 64 then checked .pow (base.toInt.pow count) else throw (.overflow .pow)) =
      checked .pow (base.toInt ^ n.toInt.toNat) := by
  have counts : exponent n =
      if maxExponent < n.toInt then .error (.overflow .pow) else .ok n.toInt.toNat := by
    rw [exponent, if_neg (lt_zero_iff.not.mpr (Int.not_lt.mpr defined))]
  have far : 64 < n.toInt →
      checked .pow (base.toInt ^ n.toInt.toNat) = .error (.overflow .pow) :=
    fun many => checked_eq_error.mpr ⟨rfl, not_fits_pow (grows many) (by omega)⟩
  rw [counts]
  split
  · next large =>
    rw [maxExponent] at large
    rw [far (by omega)]
    rfl
  · show (if n.toInt.toNat ≤ 64 then checked .pow (base.toInt.pow n.toInt.toNat)
      else throw (.overflow .pow)) = _
    split
    · rfl
    · rw [far (by omega)]
      rfl

theorem power_of_nonneg (base : Int64) {n : Int64} (defined : 0 ≤ n.toInt) :
    power base n = checked .pow (base.toInt ^ n.toInt.toNat) := by
  have checks : ∀ value : Int64, value.toInt = base.toInt ^ n.toInt.toNat →
      .ok value = checked .pow (base.toInt ^ n.toInt.toNat) :=
    fun value same => (checked_eq_ok.mpr same).symm
  have above : 0 ≤ n := zero_le_iff.mpr defined
  have whole : (n.toInt.toNat : Int) = n.toInt := Int.toNat_of_nonneg defined
  unfold power
  by_cases one : base = 1
  · rw [if_pos ⟨one, above⟩]
    apply checks
    rw [one]
    exact (one_pow _).symm
  rw [if_neg fun case => one case.1]
  by_cases zero : base = 0 ∧ 0 < n
  · rw [if_pos zero]
    apply checks
    have positive := zero_lt_iff.mp zero.2
    have nonzero : n.toInt.toNat ≠ 0 := by omega
    rw [zero.1]
    exact (zero_pow nonzero).symm
  rw [if_neg zero]
  by_cases minus : base = -1
  · rw [if_pos ⟨minus, above⟩]
    apply checks
    have unit : (-1 : Int64).toInt = -1 := rfl
    rw [minus, unit, minusOne_pow, whole]
    split <;> rfl
  rw [if_neg fun case => minus case.1]
  apply bounded_eq_checked defined
  intro many
  have apart : ∀ value : Int64, base ≠ value → base.toInt ≠ value.toInt :=
    fun value other same => other (Int64.toInt_inj.mp same)
  have positive : 0 < n := zero_lt_iff.mpr (by omega)
  have first : base.toInt ≠ 0 := apart 0 fun same => zero ⟨same, positive⟩
  have second : base.toInt ≠ 1 := apart 1 one
  have third : base.toInt ≠ -1 := apart (-1) minus
  omega

end Powers

section Shifts

/-- The amount by which a word is shifted, taken from the low bits of the right operand. -/
theorem shiftedBits {b : Int64} (low : 0 ≤ b.toInt) (high : b.toInt < 64) :
    (b.toBitVec.smod 64).toNat = b.toInt.toNat := by
  have whole : (b.toBitVec.smod 64).toInt = b.toInt := by
    have word : (64 : BitVec 64).toInt = 64 := rfl
    rw [BitVec.toInt_smod, word, Int.fmod_eq_emod_of_nonneg _ (by decide)]
    exact Int.emod_eq_of_lt low high
  have bound := (b.toBitVec.smod 64).isLt
  rw [BitVec.toInt_eq_toNat_cond] at whole
  split at whole <;> omega

theorem toInt_shiftLeft {a b : Int64} (low : 0 ≤ b.toInt) (high : b.toInt < 64) :
    (a <<< b).toInt = (a.toInt * 2 ^ b.toInt.toNat).bmod (2 ^ 64) := by
  calc (a <<< b).toInt
    _ = (a.toBitVec <<< b.toInt.toNat).toInt := by
      rw [Int64.toInt, Int64.toBitVec_shiftLeft, BitVec.shiftLeft_eq', shiftedBits low high]
    _ = ((a.toBitVec.toNat : Int) * 2 ^ b.toInt.toNat).bmod (2 ^ 64) := by
      rw [BitVec.toInt_shiftLeft, Nat.shiftLeft_eq]
      push_cast
      rfl
    _ = (a.toInt * 2 ^ b.toInt.toNat).bmod (2 ^ 64) := by
      have word : a.toInt = (a.toBitVec.toNat : Int).bmod (2 ^ 64) := a.toBitVec.toInt_eq_toNat_bmod
      rw [word, Int.bmod_mul_bmod]

theorem toInt_shiftRight {a b : Int64} (low : 0 ≤ b.toInt) (high : b.toInt < 64) :
    (a >>> b).toInt = a.toInt.fdiv (2 ^ b.toInt.toNat) := by
  have positive : (0 : Int) ≤ 2 ^ b.toInt.toNat := pow_nonneg (by decide) _
  calc (a >>> b).toInt
    _ = (a.toBitVec.sshiftRight b.toInt.toNat).toInt := by
      rw [Int64.toInt, Int64.toBitVec_shiftRight, BitVec.sshiftRight_eq', shiftedBits low high]
    _ = a.toInt / ((2 ^ b.toInt.toNat : Nat) : Int) := by
      rw [BitVec.toInt_sshiftRight, Int.shiftRight_eq_div_pow]
      rfl
    _ = a.toInt.fdiv (2 ^ b.toInt.toNat) := by
      rw [Int.fdiv_eq_ediv_of_nonneg _ positive]
      push_cast
      rfl

end Shifts

section Operators

open BinaryOp

variable {op : BinaryOp} {a b : Int64}

theorem BinaryOp.Means.unique {a b result other : Int} (means : op.Means a b result)
    (means' : op.Means a b other) : result = other := by
  cases op with
  | bitOr | bitXor | bitAnd => exact eq_of_testBit fun i => (means i).trans (means' i).symm
  | _ => exact Eq.trans means (Eq.symm means')

theorem obeys_of_refusal {fault : Fault} (refuses : op.refusal? b = some fault) :
    op.Obeys a b (.error fault) := by
  constructor
  · intro result
    simp [refuses]
  · intro other
    simp [refuses]

theorem obeys_of_means {result : Int64} (defined : op.refusal? b = none)
    (means : op.Means a.toInt b.toInt result.toInt) : op.Obeys a b (.ok result) := by
  constructor
  · intro other
    rw [defined]
    constructor
    · intro same
      cases same
      exact ⟨rfl, means⟩
    · intro exact
      exact congrArg Except.ok (Int64.toInt_inj.mp (means.unique exact.2))
  · intro fault
    rw [defined]
    constructor
    · intro same
      cases same
    · intro reason
      obtain refuses | ⟨_, _, _, other, means', beyond⟩ := reason
      · cases refuses
      · exact absurd (means'.unique means ▸ fits_toInt result) beyond

theorem obeys_checked {value : Int} (unbounded : op ∈ unbounded) (defined : op.refusal? b = none)
    (means : op.Means a.toInt b.toInt value) : op.Obeys a b (checked op value) := by
  cases outcome : checked op value with
  | ok result =>
    rw [← checked_eq_ok.mp outcome] at means
    exact obeys_of_means defined means
  | error fault =>
    have beyond := checked_eq_error.mp outcome
    constructor
    · intro result
      constructor
      · intro same
        cases same
      · intro exact
        have same := exact.2.unique means
        exact absurd (same ▸ fits_toInt result) beyond.2
    · intro other
      rw [defined, beyond.1]
      constructor
      · intro same
        cases same
        exact .inr ⟨rfl, rfl, unbounded, value, means, beyond.2⟩
      · intro reason
        obtain refuses | ⟨_, same, _⟩ := reason
        · cases refuses
        · rw [same]

theorem toInt_ofTruth (truth : Bool) : (ofTruth truth).toInt = if truth then 1 else 0 := by
  cases truth <;> rfl

theorem divide_obeys (a b : Int64) : div.Obeys a b (divide a b) := by
  have zero : b = 0 ↔ b.toInt = 0 := Int64.toInt_inj.symm
  unfold divide
  split
  · next same => exact obeys_of_refusal (if_pos (zero.mp same))
  · next other => exact obeys_checked (by decide) (if_neg (zero.not.mp other)) rfl

theorem power_obeys (a b : Int64) : pow.Obeys a b (power a b) := by
  by_cases negative : b.toInt < 0
  · rw [power_of_neg a negative]
    exact obeys_of_refusal (if_pos negative)
  · rw [power_of_nonneg a (Int.not_lt.mp negative)]
    exact obeys_checked (by decide) (if_neg negative) rfl

theorem shift_obeys {shift : Int64 → Int64}
    (refuses : op.refusal? b = if 0 ≤ b.toInt ∧ b.toInt < 64 then none else some (.invalidShift b))
    (means : 0 ≤ b.toInt → b.toInt < 64 → op.Means a.toInt b.toInt (shift b).toInt) :
    op.Obeys a b (do return shift (← shiftAmount b)) := by
  have bounds : 0 ≤ b ∧ b < 64 ↔ 0 ≤ b.toInt ∧ b.toInt < 64 :=
    and_congr zero_le_iff Int64.lt_iff_toInt_lt
  rw [shiftAmount]
  split
  · next inside =>
    have inside := bounds.mp inside
    exact obeys_of_means (refuses.trans (if_pos inside)) (means inside.1 inside.2)
  · next outside => exact obeys_of_refusal (refuses.trans (if_neg (bounds.not.mp outside)))

theorem applyInteger_obeys (op : BinaryOp) (a b : Int64) : op.Obeys a b (applyInteger op a b) := by
  cases op with
  | add | sub | mul => exact obeys_checked (by decide) rfl rfl
  | div => exact divide_obeys a b
  | pow => exact power_obeys a b
  | shiftLeft => exact shift_obeys rfl toInt_shiftLeft
  | shiftRight => exact shift_obeys rfl toInt_shiftRight
  | equal | notEqual | less | greater | lessEqual | greaterEqual =>
    apply obeys_of_means rfl
    rw [toInt_ofTruth]
    simp [Means, Int64.toInt_inj, Int64.lt_iff_toInt_lt, Int64.le_iff_toInt_le]
  | bitOr =>
    apply obeys_of_means rfl
    intro i
    simp only [testBit_toInt, Int64.toBitVec_or, BitVec.getLsbD_or, BitVec.msb_or]
    split <;> rfl
  | bitXor =>
    apply obeys_of_means rfl
    intro i
    simp only [testBit_toInt, Int64.toBitVec_xor, BitVec.getLsbD_xor, BitVec.msb_xor]
    split <;> rfl
  | bitAnd =>
    apply obeys_of_means rfl
    intro i
    simp only [testBit_toInt, Int64.toBitVec_and, BitVec.getLsbD_and, BitVec.msb_and]
    split <;> rfl

theorem fits_tdiv_iff (a : Int64) {b : Int64} (nonzero : b.toInt ≠ 0) :
    ¬ Fits (a.toInt.tdiv b.toInt) ↔ a.toInt = -2 ^ 63 ∧ b.toInt = -1 := by
  have low := a.le_toInt
  have high := a.toInt_lt
  constructor
  · intro beyond
    by_cases minus : b.toInt = -1
    · rw [minus, Int.tdiv_neg, Int.tdiv_one, Fits] at beyond
      omega
    · by_cases one : b.toInt = 1
      · rw [one, Int.tdiv_one] at beyond
        exact absurd (fits_toInt a) beyond
      · have halved : (a.toInt.tdiv b.toInt).natAbs ≤ a.toInt.natAbs / 2 := by
          rw [Int.natAbs_tdiv]
          exact Nat.div_le_div_left (by omega) (by decide)
        rw [Fits] at beyond
        omega
  · intro extreme
    rw [extreme.1, extreme.2, Fits]
    decide

/-- Integer operators are exact or fail. An operation succeeds with the mathematical result exactly
if the operator is defined and this result is of 64 bits; it fails with the fault of an operand for
which the operator is not defined, or else with an overflow, and among quotients there is only one
that overflows. -/
theorem integer_operators_exact (op : BinaryOp) (a b : Int64) :
    op.Obeys a b (applyInteger op a b) ∧
      (applyInteger .div a b = .error (.overflow .div) ↔ a.toInt = -2 ^ 63 ∧ b.toInt = -1) := by
  constructor
  · exact applyInteger_obeys op a b
  · rw [(applyInteger_obeys .div a b).refused]
    by_cases zero : b.toInt = 0
    · simp [refusal?, zero]
    · rw [← fits_tdiv_iff a zero]
      simp [refusal?, zero, Means, unbounded]

example : [(-2, 63), (-2, 64), (2, 63), (-1, 4294967297), (0, 0), (3, 9223372036854775807)].map
    (fun (a, b) => (applyInteger .pow a b).toOption) =
      [some (-9223372036854775808), none, none, some (-1), some 1, none] := by
  decide

end Operators

end Calculator

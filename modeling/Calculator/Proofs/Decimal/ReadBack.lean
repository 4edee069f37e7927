import Calculator.Number.Scalar
import Calculator.Proofs.Decimal.Parts
import Calculator.Proofs.Decimal.Rounding
import Calculator.Proofs.Number.Reading

/-!
Reading back. The text of a decimal is read as a decimal of the same value. So a text decides the
number that it was written for, unless that is undefined.
-/

namespace Calculator

namespace Decimal

theorem value_padded (coefficient count : Nat) (exponent : Int) :
    value ⟨10 ^ count * coefficient, exponent - count⟩ = value ⟨coefficient, exponent⟩ := by
  have ten : (10 : ℚ) ≠ 0 := by norm_num
  have scaled : (10 : ℚ) ^ count * 10 ^ (exponent - count) = 10 ^ exponent := by
    rw [← zpow_natCast, ← zpow_add₀ ten, add_sub_cancel]
  rw [value, value, Nat.cast_mul, Nat.cast_pow, Nat.cast_ofNat, mul_right_comm, scaled, mul_comm]

section Layouts

variable {digits : List Char} (nonempty : digits ≠ []) (numeral : ∀ c ∈ digits, c.isDigit)
include nonempty numeral

theorem withPoint_eq (place : Int) : ∃ whole fraction, fraction ≠ [] ∧
    (∀ c ∈ whole ++ fraction, c.isDigit) ∧ withPoint digits place = whole ++ '.' :: fraction ∧
    value ⟨Nat.ofDigitChars 10 (whole ++ fraction) 0, -(fraction.length : Int)⟩ =
      value ⟨Nat.ofDigitChars 10 digits 0, place - digits.length⟩ := by
  have zeros : ∀ count : Nat, ∀ c ∈ List.replicate count '0', c.isDigit := by
    intro count c member
    rw [List.eq_of_mem_replicate member]
    rfl
  unfold withPoint
  split
  · next before =>
    refine ⟨['0'], List.replicate (-place).toNat '0' ++ digits,
      List.append_ne_nil_of_right_ne_nil _ nonempty, ?_, rfl, ?_⟩
    · intro c member
      obtain first | member := List.mem_append.mp member
      · exact zeros 1 c first
      · obtain zero | digit := List.mem_append.mp member
        · exact zeros _ c zero
        · exact numeral c digit
    · rw [List.singleton_append, Nat.ofDigitChars_cons, Nat.ofDigitChars_append,
        Nat.ofDigitChars_replicate_zero, List.length_append, List.length_replicate]
      congr 2
      omega
  · split
    · next inside =>
      refine ⟨digits.take place.toNat, digits.drop place.toNat, ?_, ?_, by simp, ?_⟩
      · rw [Ne, List.drop_eq_nil_iff]
        omega
      · rwa [List.take_append_drop]
      · rw [List.take_append_drop, List.length_drop]
        congr 2
        omega
    · next behind =>
      refine ⟨digits ++ List.replicate (place.toNat - digits.length) '0', ['0'], by simp, ?_,
        by simp, ?_⟩
      · intro c member
        obtain member | last := List.mem_append.mp member
        · obtain digit | zero := List.mem_append.mp member
          · exact numeral c digit
          · exact zeros _ c zero
        · exact zeros 1 c last
      · have padded := value_padded (Nat.ofDigitChars 10 digits 0)
          (place.toNat - digits.length + 1) (place - digits.length)
        rw [List.append_assoc, ← List.replicate_succ', Nat.ofDigitChars_append,
          Nat.ofDigitChars_replicate_zero, ← padded, List.length_singleton]
        congr 2
        omega

theorem withPower_eq (place : Int) : ∃ kind plain decimal,
    Numeral kind plain ∧ readPlain? plain = some decimal ∧
      withPower digits place = plain ++ 'e' :: intText (place - 1) ∧
      value ⟨decimal.coefficient, decimal.exponent + (place - 1)⟩ =
        value ⟨Nat.ofDigitChars 10 digits 0, place - digits.length⟩ := by
  obtain ⟨first, rest, rfl⟩ := List.exists_cons_of_ne_nil nonempty
  unfold withPower
  obtain rfl | more := eq_or_ne rest []
  · refine ⟨_, [first], _, .plain nonempty numeral, readPlain?_digits nonempty numeral, rfl, ?_⟩
    congr 2
    simp only [List.length_singleton]
    omega
  · have long : ¬ (first :: rest).length ≤ 1 := by
      have positive := List.length_pos_iff.mpr more
      rw [List.length_cons]
      omega
    refine ⟨_, [first] ++ '.' :: rest, _, .point more numeral, readPlain?_point more numeral, ?_,
      ?_⟩
    · rw [if_neg long]
      simp
    · congr 2
      simp only [List.length_cons]
      omega

end Layouts

end Decimal

/-- A text without a sign that is read as this number, in digits and with a mark that an integer does
not have. -/
structure Spells (text : List Char) (number : ℚ) : Prop where
  read : ∃ decimal, Decimal.read? text = some decimal ∧ decimal.value = number
  plain : ∀ c ∈ text.head?, c ≠ '-' ∧ c ≠ '+'
  numeral : ∀ c ∈ text, c.isDigit ∨ c ∈ ['.', 'e', '-']
  marked : '.' ∈ text ∨ 'e' ∈ text

namespace Spells

theorem point {whole fraction : List Char} (nonempty : fraction ≠ [])
    (digits : ∀ c ∈ whole ++ fraction, c.isDigit) :
    Spells (whole ++ '.' :: fraction)
      (Decimal.value ⟨Nat.ofDigitChars 10 (whole ++ fraction) 0, -(fraction.length : Int)⟩) where
  read := by
    rw [read?_plain (mem_point digits)]
    exact ⟨_, readPlain?_point nonempty digits, rfl⟩
  plain := unsigned (mem_point digits)
  numeral c member := by
    obtain digit | rfl := mem_point digits c member
    · exact .inl digit
    · decide
  marked := .inl (by simp)

theorem power {word : List Char} {decimal : Decimal} {shift : Int}
    (numeral : ∀ c ∈ word, c.isDigit ∨ c = '.') (read : Decimal.readPlain? word = some decimal) :
    Spells (word ++ 'e' :: intText shift)
      (Decimal.value ⟨decimal.coefficient, decimal.exponent + shift⟩) where
  read := ⟨_, read?_power numeral read (readInt?_intText shift), rfl⟩
  plain c first := by
    cases word with
    | nil =>
      cases first
      decide
    | cons d rest => exact unsigned numeral c first
  numeral c member := by
    obtain member | member := List.mem_append.mp member
    · obtain digit | rfl := numeral c member
      · exact .inl digit
      · decide
    · obtain rfl | member := List.mem_cons.mp member
      · decide
      · obtain digit | rfl := mem_intText c member
        · exact .inl digit
        · decide
  marked := .inr (by simp)

theorem text (decimal : Decimal) : Spells decimal.text decimal.value := by
  obtain ⟨coefficient, exponent⟩ := decimal
  have nonempty := natText_ne_nil coefficient
  have digits := isDigit_natText coefficient
  have same := ofDigitChars_natText coefficient
  unfold Decimal.text
  simp only
  split
  · obtain ⟨whole, fraction, more, digits, spelled, value⟩ := Decimal.withPoint_eq nonempty digits
      ((natText coefficient).length + exponent)
    rw [add_sub_cancel_left, same] at value
    rw [spelled, ← value]
    exact point more digits
  · obtain ⟨kind, word, decimal, numeral, read, spelled, value⟩ :=
      Decimal.withPower_eq nonempty digits ((natText coefficient).length + exponent)
    rw [add_sub_cancel_left, same] at value
    rw [spelled, ← value]
    exact power numeral.chars read

theorem zero : Spells ['0', '.', '0'] 0 := by
  have spells := @point ['0'] ['0'] (by simp) (by simp)
  have value : Decimal.value ⟨Nat.ofDigitChars 10 ['0', '0'] 0, -1⟩ = 0 := zero_mul _
  rwa [← value]

variable {word : List Char} {number : ℚ} (spells : Spells word number)
include spells

theorem not_digits : readNat? word = none := by
  apply if_neg
  rintro ⟨_, digits⟩
  have all := List.all_eq_true.mp digits
  obtain mark | mark := spells.marked
  · exact absurd (all _ mark) (by decide)
  · exact absurd (all _ mark) (by decide)

theorem ne_name {c : Char} {rest : List Char} (letter : ¬ (c.isDigit ∨ c ∈ ['.', 'e', '-'])) :
    word ≠ c :: rest := by
  rintro rfl
  exact letter (spells.numeral c List.mem_cons_self)

end Spells

namespace Binary

open RoundingRange (Canonical)

theorem ofFloat_eq_nan {x : Float} : ofFloat x = nan ↔ x.isNaN = true := by
  rw [ofFloat_eq]
  show ofUnpacked x.toModel.unpack = nan ↔ x.toModel.unpack.isNaN = true
  cases x.toModel.unpack with
  | notANumber => exact ⟨fun _ => rfl, fun _ => rfl⟩
  | _ => exact ⟨fun undefined => (nomatch undefined), fun undefined => (nomatch undefined)⟩

theorem canonical_of_ofFloat {x : Float} {negative : Bool} {significand : Nat} {exponent : Int}
    (parts : ofFloat x = finite negative significand exponent) :
    Canonical significand exponent := by
  unfold ofFloat ofBits at parts
  have fraction := Nat.mod_lt x.toBits.toNat (show 0 < hiddenBit by decide)
  simp only at parts
  split at parts
  · split at parts
    · cases parts
    · cases parts
  · split at parts
    · cases parts
      exact ⟨Nat.lt_trans fraction (by decide), le_rfl, fun less => absurd less (lt_irrefl _)⟩
    · cases parts
      simp only [hiddenBit, minExponent] at fraction ⊢
      refine ⟨?_, ?_, fun _ => ?_⟩
      · omega
      · simp only [minExponent]
        omega
      · omega

theorem holds_zero (exponent : Int) : (RoundingRange.around 0 exponent).Holds 0 where
  low := by
    have low : (RoundingRange.around 0 exponent).low = 0 := Nat.zero_sub _
    rw [low, Nat.cast_zero, zero_mul]
  high := mul_nonneg (Nat.cast_nonneg _) (zpow_pos two_pos _).le
  inside half := by cases half

/-- The text of a finite number spells a number of its rounding range. -/
theorem spells_finite (negative : Bool) (significand : Nat) (exponent : Int) :
    ∃ word number, (finite negative significand exponent).text = signText negative ++ word ∧
      Spells word number ∧ (RoundingRange.around significand exponent).Holds number := by
  cases significand with
  | zero =>
    exact ⟨_, _, rfl, Spells.zero, holds_zero exponent⟩
  | succ rest =>
    have spells := Spells.text (RoundingRange.around (rest + 1) exponent).shortest
    exact ⟨_, _, rfl, spells, RoundingRange.holds_shortest (Nat.succ_pos rest)⟩

section Texts

variable {negative negative' : Bool} {significand significand' : Nat} {exponent exponent' : Int}

theorem splitSign_infinite (negative : Bool) :
    splitSign (infinite negative).text = (negative, ['i', 'n', 'f']) :=
  splitSign_signText negative (by simp)

theorem text_finite_ne_nan : (finite negative significand exponent).text ≠ nan.text := by
  intro same
  obtain ⟨word, number, spelled, spells, _⟩ := spells_finite negative significand exponent
  have split := congrArg splitSign same
  rw [spelled, splitSign_signText _ spells.plain] at split
  exact spells.ne_name (by decide) (congrArg Prod.snd split)

theorem text_finite_ne_infinite :
    (finite negative significand exponent).text ≠ (infinite negative').text := by
  intro same
  obtain ⟨word, number, spelled, spells, _⟩ := spells_finite negative significand exponent
  have split := congrArg splitSign same
  rw [spelled, splitSign_signText _ spells.plain, splitSign_infinite] at split
  exact spells.ne_name (by decide) (congrArg Prod.snd split)

theorem text_finite_inj (canonical : Canonical significand exponent)
    (canonical' : Canonical significand' exponent')
    (same : (finite negative significand exponent).text =
      (finite negative' significand' exponent').text) :
    finite negative significand exponent = finite negative' significand' exponent' := by
  obtain ⟨word, number, spelled, spells, holds⟩ := spells_finite negative significand exponent
  obtain ⟨word', number', spelled', spells', holds'⟩ :=
    spells_finite negative' significand' exponent'
  have split := congrArg splitSign same
  rw [spelled, spelled', splitSign_signText _ spells.plain, splitSign_signText _ spells'.plain] at split
  obtain ⟨rfl, rfl⟩ := Prod.mk.inj split
  obtain ⟨decimal, read, rfl⟩ := spells.read
  obtain ⟨decimal', read', rfl⟩ := spells'.read
  obtain rfl := Option.some.inj (read.symm.trans read')
  -- Both numbers round from the one decimal that is read.
  obtain ⟨rfl, rfl⟩ := RoundingRange.holds_unique canonical canonical' holds holds'
  rfl

end Texts

def IsCanonical : Binary → Prop
  | finite _ significand exponent => Canonical significand exponent
  | _ => True

theorem text_inj {b b' : Binary} (canonical : b.IsCanonical) (canonical' : b'.IsCanonical)
    (same : b.text = b'.text) : b = b' := by
  cases b with
  | nan =>
    cases b' with
    | nan => rfl
    | infinite negative => cases negative <;> cases same
    | finite negative significand exponent => exact absurd same.symm text_finite_ne_nan
  | infinite negative =>
    cases b' with
    | nan => cases negative <;> cases same
    | infinite negative' =>
      have split := congrArg splitSign same
      rw [splitSign_infinite, splitSign_infinite] at split
      exact congrArg infinite (congrArg Prod.fst split)
    | finite negative' significand exponent => exact absurd same.symm text_finite_ne_infinite
  | finite negative significand exponent =>
    cases b' with
    | nan => exact absurd same text_finite_ne_nan
    | infinite negative' => exact absurd same text_finite_ne_infinite
    | finite negative' significand' exponent' => exact text_finite_inj canonical canonical' same

theorem readInt?_text (b : Binary) : readInt? b.text = none := by
  cases b with
  | nan => decide
  | infinite negative =>
    simp only [readInt?, splitSign_infinite]
    rfl
  | finite negative significand exponent =>
    obtain ⟨word, number, spelled, spells, _⟩ := spells_finite negative significand exponent
    simp only [readInt?, spelled, splitSign_signText _ spells.plain, spells.not_digits]
    rfl

theorem isCanonical_ofFloat (x : Float) : (ofFloat x).IsCanonical := by
  unfold IsCanonical
  split
  · next parts => exact canonical_of_ofFloat parts
  · trivial

end Binary

section Blanks

theorem isWhitespace_digit {c : Char} (digit : c.isDigit) : c.isWhitespace = false := by
  have blanks : ∀ d ∈ [' ', '\t', '\r', '\n'], d.isDigit = false := by simp
  have apart : ∀ d ∈ [' ', '\t', '\r', '\n'], c ≠ d :=
    fun d member => digit_ne digit (blanks d member)
  simpa [Char.isWhitespace, and_assoc] using apart

theorem isWhitespace_signText {negative : Bool} :
    ∀ c ∈ signText negative, c.isWhitespace = false := by
  cases negative <;> simp [signText]

theorem Spells.isWhitespace {word : List Char} {number : ℚ} (spells : Spells word number) :
    ∀ c ∈ word, c.isWhitespace = false := by
  intro c member
  obtain digit | mark := spells.numeral c member
  · exact isWhitespace_digit digit
  · have blank : ∀ d ∈ ['.', 'e', '-'], d.isWhitespace = false := by simp
    exact blank c mark

theorem Binary.isWhitespace_text (b : Binary) : ∀ c ∈ b.text, c.isWhitespace = false := by
  cases b with
  | nan => simp [text]
  | infinite negative => cases negative <;> simp [text, signText]
  | finite negative significand exponent =>
    obtain ⟨word, number, spelled, spells, _⟩ := spells_finite negative significand exponent
    rw [spelled, List.forall_mem_append]
    exact ⟨isWhitespace_signText, spells.isWhitespace⟩

theorem Scalar.isWhitespace_text (a : Scalar) : ∀ c ∈ a.text.toList, c.isWhitespace = false := by
  cases a with
  | int n =>
    rw [Scalar.text, int64Text, String.toList_ofList, intText, List.forall_mem_append]
    exact ⟨isWhitespace_signText, fun c member => isWhitespace_digit (isDigit_natText _ c member)⟩
  | float x =>
    rw [Scalar.text, floatText, String.toList_ofList]
    exact (Binary.ofFloat x).isWhitespace_text

end Blanks

theorem int64Text_inj {n n' : Int64} (same : int64Text n = int64Text n') : n = n' := by
  have texts := congrArg (fun text => readInt? text.toList) same
  simp only [int64Text, String.toList_ofList, readInt?_intText] at texts
  exact Int64.toInt_inj.mp (Option.some.inj texts)

theorem floatText_inj {x x' : Float} (defined : x.isNaN = false)
    (same : floatText x = floatText x') : x = x' := by
  have parts := Binary.text_inj (Binary.isCanonical_ofFloat x) (Binary.isCanonical_ofFloat x')
    (String.ofList_inj.mp same)
  apply Binary.ofFloat_inj _ parts
  rw [Ne, Binary.ofFloat_eq_nan, defined]
  exact Bool.false_ne_true

theorem int64Text_ne_floatText (n : Int64) (x : Float) : int64Text n ≠ floatText x := by
  intro same
  have texts := congrArg (fun text => readInt? text.toList) same
  simp only [int64Text, floatText, String.toList_ofList, readInt?_intText,
    Binary.readInt?_text] at texts
  cases texts

namespace Scalar

def isNaN : Scalar → Bool
  | int _ => false
  | float x => x.isNaN

/-- A text decides both type and value, unless it is that of an undefined number. -/
theorem text_inj {a b : Scalar} (defined : a.isNaN = false) (same : a.text = b.text) : a = b := by
  cases a with
  | int n =>
    cases b with
    | int n' => exact congrArg Scalar.int (int64Text_inj same)
    | float x => exact absurd same (int64Text_ne_floatText n x)
  | float x =>
    cases b with
    | int n => exact absurd same.symm (int64Text_ne_floatText n x)
    | float x' => exact congrArg Scalar.float (floatText_inj defined same)

end Scalar

end Calculator

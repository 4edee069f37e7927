import Mathlib.Data.List.TakeWhile
import Calculator.Decimal.Reader
import Calculator.Token

/-!
Which texts are read as numbers: plain digits if they fit in 64 bits, and digits with a point among
them always.
-/

namespace Calculator

theorem digit_ne {c d : Char} (digit : c.isDigit) (other : d.isDigit = false) : c ≠ d := by
  rintro rfl
  simp [other] at digit

theorem splitSign_plain {text : List Char} (plain : ∀ c ∈ text.head?, c ≠ '-' ∧ c ≠ '+') :
    splitSign text = (false, text) := by
  cases text with
  | nil => rfl
  | cons c rest =>
    obtain ⟨minus, plus⟩ := plain c rfl
    rw [splitSign]
    · rintro _ ⟨⟩
      exact minus rfl
    · rintro _ ⟨⟩
      exact plus rfl

theorem unsigned {text : List Char} (numeral : ∀ c ∈ text, c.isDigit ∨ c = '.') :
    ∀ c ∈ text.head?, c ≠ '-' ∧ c ≠ '+' := by
  intro c first
  rcases numeral c (List.mem_of_mem_head? first) with digit | rfl
  · exact ⟨digit_ne digit rfl, digit_ne digit rfl⟩
  · decide

theorem splitSign_signText (negative : Bool) {text : List Char}
    (plain : ∀ c ∈ text.head?, c ≠ '-' ∧ c ≠ '+') :
    splitSign (signText negative ++ text) = (negative, text) := by
  cases negative with
  | false => exact splitSign_plain plain
  | true => rfl

theorem readNat?_digits {text : List Char} (nonempty : text ≠ []) (digits : ∀ c ∈ text, c.isDigit) :
    readNat? text = some (Nat.ofDigitChars 10 text 0) :=
  if_pos ⟨nonempty, List.all_eq_true.mpr digits⟩

theorem int64?_isSome {n : Int} :
    (int64? n).isSome ↔ -9223372036854775808 ≤ n ∧ n < 9223372036854775808 := by
  have least : Int64.minValue.toInt = -9223372036854775808 := rfl
  have most : Int64.maxValue.toInt = 9223372036854775807 := rfl
  rw [int64?, least, most, Option.isSome_ite]
  omega

theorem int64?_toInt (n : Int64) : int64? n.toInt = some n := by
  rw [int64?, if_pos ⟨Int64.le_iff_toInt_le.mp (Int64.minValue_le n), n.toInt_le⟩,
    Int64.ofInt_toInt]

theorem toInt_of_int64? {n : Int} {value : Int64} (fits : int64? n = some value) :
    value.toInt = n := by
  have range := int64?_isSome.mp (Option.isSome_of_mem fits)
  rw [int64?] at fits
  split at fits
  · obtain rfl := Option.some.inj fits
    exact Int64.toInt_ofInt_of_le (by omega) (by omega)
  · cases fits

theorem readInt?_digits {text : List Char} (nonempty : text ≠ []) (digits : ∀ c ∈ text, c.isDigit) :
    readInt? text = some (Nat.ofDigitChars 10 text 0 : Int) := by
  have plain := unsigned fun c member => .inl (digits c member)
  simp only [readInt?, splitSign_plain plain, readNat?_digits nonempty digits]
  rfl

theorem readInt64?_digits {text : List Char} (nonempty : text ≠ [])
    (digits : ∀ c ∈ text, c.isDigit) :
    (readInt64? text).isSome ↔ Nat.ofDigitChars 10 text 0 < 9223372036854775808 := by
  rw [readInt64?, readInt?_digits nonempty digits, Option.bind_some, int64?_isSome]
  omega

theorem readInt64?_nonneg {text : List Char} {value : Int64} (nonempty : text ≠ [])
    (digits : ∀ c ∈ text, c.isDigit) (read : readInt64? text = some value) : 0 ≤ value := by
  rw [readInt64?, readInt?_digits nonempty digits, Option.bind_some] at read
  apply Int64.le_iff_toInt_le.mpr
  rw [toInt_of_int64? read]
  exact Int.natCast_nonneg _

theorem natText_ne_nil (n : Nat) : natText n ≠ [] := Nat.toDigits_ne_nil

theorem isDigit_natText (n : Nat) : ∀ c ∈ natText n, c.isDigit :=
  fun _ member => Nat.isDigit_of_mem_toDigits (by decide) (by decide) member

theorem ofDigitChars_natText (n : Nat) : Nat.ofDigitChars 10 (natText n) 0 = n :=
  Nat.ofDigitChars_toDigits (by decide) (by decide)

theorem mem_intText {n : Int} : ∀ c ∈ intText n, c.isDigit ∨ c = '-' := by
  intro c member
  obtain sign | digit := List.mem_append.mp member
  · unfold signText at sign
    split at sign
    · exact .inr (List.mem_singleton.mp sign)
    · cases sign
  · exact .inl (isDigit_natText _ c digit)

theorem intText_nonneg {n : Int} (natural : 0 ≤ n) :
    intText n ≠ [] ∧ (∀ c ∈ intText n, c.isDigit) ∧ Nat.ofDigitChars 10 (intText n) 0 = n := by
  have text : intText n = natText n.natAbs := by
    simp [intText, signText, Int.not_lt.mpr natural]
  rw [text, ofDigitChars_natText]
  exact ⟨natText_ne_nil _, isDigit_natText _, by omega⟩

theorem readInt?_intText (n : Int) : readInt? (intText n) = some n := by
  have digits := isDigit_natText n.natAbs
  have sign := splitSign_signText (decide (n < 0)) (unsigned fun c member => .inl (digits c member))
  have same : (if decide (n < 0) then -(n.natAbs : Int) else n.natAbs) = n := by
    simp only [decide_eq_true_eq]
    omega
  simp only [readInt?, intText, sign, readNat?_digits (natText_ne_nil _) digits,
    ofDigitChars_natText]
  exact congrArg some same

theorem readInt64?_int64Text {n : Int64} (natural : 0 ≤ n) :
    readInt64? (int64Text n).toList = some n := by
  rcases intText_nonneg (Int64.le_iff_toInt_le.mp natural) with ⟨nonempty, digits, same⟩
  rw [int64Text, String.toList_ofList, readInt64?, readInt?_digits nonempty digits, same,
    Option.bind_some, int64?_toInt]

theorem readPlain?_digits {text : List Char} (nonempty : text ≠ [])
    (digits : ∀ c ∈ text, c.isDigit) :
    Decimal.readPlain? text = some ⟨Nat.ofDigitChars 10 text 0, 0⟩ := by
  rw [Decimal.readPlain?, List.takeWhile_eq_self_iff.mpr digits,
    List.dropWhile_eq_nil_iff.mpr digits]
  simp only [readNat?_digits nonempty digits, Option.map_some]

theorem readPlain?_point {whole fraction : List Char} (nonempty : fraction ≠ [])
    (digits : ∀ c ∈ whole ++ fraction, c.isDigit) :
    Decimal.readPlain? (whole ++ '.' :: fraction) =
      some ⟨Nat.ofDigitChars 10 (whole ++ fraction) 0, -(fraction.length : Int)⟩ := by
  have front : ∀ c ∈ whole, c.isDigit := fun c member => digits c (List.mem_append_left _ member)
  have back : fraction.all Char.isDigit :=
    List.all_eq_true.mpr fun c member => digits c (List.mem_append_right _ member)
  have apart : (whole ++ '.' :: fraction).takeWhile Char.isDigit = whole := by
    rw [List.takeWhile_append_of_pos front]
    simp
  have behind : (whole ++ '.' :: fraction).dropWhile Char.isDigit = '.' :: fraction := by
    rw [List.dropWhile_append_of_pos front]
    rfl
  rw [Decimal.readPlain?, behind]
  simp only [apart, back, if_true]
  rw [readNat?_digits (by simp [nonempty]) digits]
  rfl

theorem mem_point {whole fraction : List Char} (digits : ∀ c ∈ whole ++ fraction, c.isDigit) :
    ∀ c ∈ whole ++ '.' :: fraction, c.isDigit ∨ c = '.' := by
  intro c member
  rcases List.mem_append.mp member with member | member
  · exact .inl (digits c (List.mem_append_left _ member))
  · rcases List.mem_cons.mp member with rfl | member
    · exact .inr rfl
    · exact .inl (digits c (List.mem_append_right _ member))

/-- How numbers are written without a sign: digits, or digits with a point in front of the last of
them. Each is a kind of words. -/
inductive Numeral : Kind → List Char → Prop
  | plain {word : List Char} (nonempty : word ≠ []) (figures : ∀ c ∈ word, c.isDigit) :
      Numeral .number word
  | point {whole fraction : List Char} (nonempty : fraction ≠ [])
      (figures : ∀ c ∈ whole ++ fraction, c.isDigit) : Numeral .decimal (whole ++ '.' :: fraction)

theorem Numeral.chars {kind : Kind} {word : List Char} (numeral : Numeral kind word) :
    ∀ c ∈ word, c.isDigit ∨ c = '.' := by
  cases numeral with
  | plain _ figures => exact fun c member => .inl (figures c member)
  | point _ figures => exact mem_point figures

section Powers

variable {plain : List Char} (numeral : ∀ c ∈ plain, c.isDigit ∨ c = '.')
include numeral

theorem not_isPowerMark : ∀ c ∈ plain, (!Decimal.isPowerMark c) = true := by
  intro c member
  rcases numeral c member with digit | rfl
  · have small : c ≠ 'e' := digit_ne digit rfl
    have large : c ≠ 'E' := digit_ne digit rfl
    simp [Decimal.isPowerMark, small, large]
  · decide

theorem read?_plain : Decimal.read? plain = Decimal.readPlain? plain := by
  rw [Decimal.read?, List.takeWhile_eq_self_iff.mpr (not_isPowerMark numeral),
    List.dropWhile_eq_nil_iff.mpr (not_isPowerMark numeral)]

theorem read?_power {decimal : Decimal} {shift : Int} {power : List Char}
    (read : Decimal.readPlain? plain = some decimal) (read' : readInt? power = some shift) :
    Decimal.read? (plain ++ 'e' :: power) =
      some ⟨decimal.coefficient, decimal.exponent + shift⟩ := by
  have unmarked := not_isPowerMark numeral
  have mark : (!Decimal.isPowerMark 'e') = false := rfl
  rw [Decimal.read?, List.takeWhile_append_of_pos unmarked,
    List.takeWhile_cons_of_neg (by simp [mark]), List.append_nil,
    List.dropWhile_append_of_pos unmarked, List.dropWhile_cons_of_neg (by simp [mark])]
  simp only [read, read']

end Powers

/-- The names of infinity and of the undefined number are read as well. -/
theorem readMagnitude?_isSome {text : List Char} (read : (Decimal.read? text).isSome) :
    (readMagnitude? text).isSome := by
  rw [readMagnitude?]
  split
  · rfl
  · rfl
  · rfl
  · rwa [Option.isSome_map]

theorem readFloat?_point {whole fraction : List Char} (nonempty : fraction ≠ [])
    (digits : ∀ c ∈ whole ++ fraction, c.isDigit) :
    (readFloat? (whole ++ '.' :: fraction)).isSome := by
  have read : (Decimal.read? (whole ++ '.' :: fraction)).isSome := by
    rw [read?_plain (mem_point digits), readPlain?_point nonempty digits]
    rfl
  rw [readFloat?, splitSign_plain (unsigned (mem_point digits)), Option.isSome_map]
  exact readMagnitude?_isSome read

end Calculator

import Calculator.Number.Arithmetic
import Calculator.Proofs.Decimal.Magnitude
import Calculator.Proofs.Lexer.Numerals
import Calculator.Syntax.Outline

/-!
Texts of floating-point numbers as words. A number that is written with a point is a decimal of the
language, with a sign perhaps. The rules know no powers of ten, so that a number that is written with
one falls apart: the mark of the power begins a name.
-/

namespace Calculator

open Lexer

def signKinds (negative : Bool) : List Kind := if negative then [.operator .sub] else []

def powerKinds (negative : Bool) : List Kind :=
  if negative then [.identifier, .operator .sub, .number] else [.identifier]

/-- A source is cut to its end, into tokens of these kinds. -/
def CutsInto (source : String) (kinds : List Kind) : Prop :=
  ∀ skips, ∃ tokens, (standard skips).tokens (.start source) = (tokens, .ok source.utf8ByteSize) ∧
    tokens.map Token.kind = kinds

def IsFloatLiteral (text : String) : Prop :=
  '.' ∈ text.toList ∧ ∃ negative, CutsInto text (signKinds negative ++ [.decimal])

section Words

variable {skips : Bool} {kind : Kind} {word : List Char} {kinds : List Kind}

theorem CutsInto.unique {source : String} {kinds' : List Kind} (cuts : CutsInto source kinds)
    (cuts' : CutsInto source kinds') : kinds = kinds' := by
  rcases cuts true with ⟨tokens, same, rfl⟩
  rcases cuts' true with ⟨tokens', same', rfl⟩
  rw [(Prod.mk.inj (same.symm.trans same')).1]

theorem map_kind_signTokens (negative : Bool) (pos : Nat) :
    (signTokens negative pos).map Token.kind = signKinds negative := by
  cases negative <;> rfl

theorem cutsInto_of_lexes {source : String}
    (lexes : ∀ skips, ∃ tokens last, Lexes skips (.start source) tokens (.ok last) ∧
      tokens.map Token.kind = kinds) : CutsInto source kinds := by
  intro skips
  rcases lexes skips with ⟨tokens, last, lexes, same⟩
  have place : last = source.utf8ByteSize := lexes.endPos.trans (Scan.endPos_start source)
  exact ⟨tokens, place ▸ lexes.tokens_eq, same⟩

theorem cutsInto_numeral (negative : Bool) (numeral : Numeral kind word) :
    CutsInto (String.ofList (signText negative ++ word)) (signKinds negative ++ [kind]) := by
  apply cutsInto_of_lexes
  intro skips
  refine ⟨_, _, lexes_numeral skips negative numeral, ?_⟩
  rw [List.map_append, map_kind_signTokens]
  rfl

theorem classify_power (n : Nat) :
    (standard skips).classify ('e' :: natText n) = some .identifier := by
  have others : ∀ word ∈ words, word.head? = some 'e' → 'l' ∈ word := by decide
  apply classify_identifier.mpr
  constructor
  · refine Pattern.accepts_name.mpr ⟨'e', natText n, rfl, by decide, ?_⟩
    exact fun c member => part_of_digit (figures_of_digits (isDigit_natText n) c member)
  · intro listed
    rcases List.mem_cons.mp (others _ listed rfl) with same | digit
    · cases same
    · exact absurd (isDigit_natText n _ digit) (by decide)

theorem exists_lexes_power (skips : Bool) (power : Int) (pos : Nat) :
    ∃ tokens last, Lexes skips ⟨'e' :: intText power, pos⟩ tokens (.ok last) ∧
      tokens.map Token.kind = powerKinds (power < 0) := by
  have digits : Numeral .number (natText power.natAbs) :=
    .plain (natText_ne_nil _) (isDigit_natText _)
  rw [intText]
  cases decide (power < 0) with
  | false =>
    have known := @classify_power skips power.natAbs
    exact ⟨_, _, .single (nonempty_of_known known) known, rfl⟩
  | true =>
    have known := @classify_identifier skips ['e']
    have named : Pattern.name.accepts ['e'] := by decide
    have longest : Longest (['e'] ++ (signText true ++ natText power.natAbs)) ['e'] := by
      apply longest_name named
      rintro c ⟨⟩
      decide
    have later : ∀ pos, Lexes skips ⟨signText true ++ natText power.natAbs, pos⟩ _ _ := fun pos =>
      .signed true (.single (natText_ne_nil _) (classify_numeral digits))
    exact ⟨_, _, .here longest (known.mpr ⟨named, by decide⟩) (later _), rfl⟩

theorem cutsInto_power (negative : Bool) (numeral : Numeral kind word) (power : Int) :
    CutsInto (String.ofList (signText negative ++ (word ++ 'e' :: intText power)))
      (signKinds negative ++ kind :: powerKinds (power < 0)) := by
  apply cutsInto_of_lexes
  intro skips
  have longest : Longest (word ++ 'e' :: intText power) word := by
    apply longest_numeral numeral
    rintro c ⟨⟩
    decide
  rcases exists_lexes_power skips power (0 + byteCount (signText negative) + byteCount word) with
    ⟨tokens, last, lexes, same⟩
  have whole := Lexes.signed negative (.here longest (classify_numeral numeral) lexes)
  rw [Scan.start, String.toList_ofList]
  refine ⟨_, last, whole, ?_⟩
  rw [List.map_append, map_kind_signTokens, List.map_cons, same]

end Words

theorem Numeral.point_mem {word : List Char} (numeral : Numeral .decimal word) : '.' ∈ word := by
  cases numeral with
  | point nonempty figures => exact List.mem_append_right _ List.mem_cons_self

namespace Decimal

def IsNear (decimal : Decimal) : Prop :=
  smallestPointPlace ≤ decimal.pointPlace ∧ decimal.pointPlace ≤ largestPointPlace

variable {decimal : Decimal}

theorem text_near (near : decimal.IsNear) : Numeral .decimal decimal.text := by
  have nonempty := natText_ne_nil decimal.coefficient
  have digits := isDigit_natText decimal.coefficient
  rcases withPoint_eq nonempty digits decimal.pointPlace with
    ⟨whole, fraction, more, figures, same, _⟩
  have text : decimal.text = withPoint (natText decimal.coefficient) decimal.pointPlace :=
    if_pos near
  rw [text, same]
  exact .point more figures

theorem text_far (far : ¬ decimal.IsNear) : ∃ kind word, Numeral kind word ∧
    decimal.text = word ++ 'e' :: intText (decimal.pointPlace - 1) := by
  have nonempty := natText_ne_nil decimal.coefficient
  have digits := isDigit_natText decimal.coefficient
  rcases withPower_eq nonempty digits decimal.pointPlace with ⟨kind, word, _, numeral, _, same, _⟩
  have text : decimal.text = withPower (natText decimal.coefficient) decimal.pointPlace :=
    if_neg far
  exact ⟨kind, word, numeral, text.trans same⟩

end Decimal

namespace Binary

open RoundingRange (Canonical around)

/-- The magnitudes that are written with a point alone. -/
def IsNear (magnitude : ℚ) : Prop :=
  magnitude = 0 ∨ 10 ^ (-4 : Int) ≤ magnitude ∧ magnitude < 10 ^ (16 : Int)

variable {negative : Bool} {significand : Nat} {exponent : Int}

theorem isNear_shortest (canonical : Canonical significand exponent) (positive : 0 < significand) :
    (around significand exponent).shortest.IsNear ↔
      IsNear ((significand : ℚ) * 2 ^ exponent) := by
  have above : (0 : ℚ) < significand * 2 ^ exponent :=
    mul_pos (Nat.cast_pos.mpr positive) (zpow_pos two_pos _)
  calc (around significand exponent).shortest.IsNear
      ↔ ¬ (around significand exponent).shortest.pointPlace < Decimal.smallestPointPlace ∧
          (around significand exponent).shortest.pointPlace ≤ Decimal.largestPointPlace := by
        rw [Decimal.IsNear, not_lt]
    _ ↔ ¬ (significand : ℚ) * 2 ^ exponent < 10 ^ (-4 : Int) ∧
          (significand : ℚ) * 2 ^ exponent < 10 ^ (16 : Int) := by
        rw [RoundingRange.pointPlace_lt_iff canonical positive,
          RoundingRange.pointPlace_le_iff canonical positive]
    _ ↔ IsNear ((significand : ℚ) * 2 ^ exponent) := by
        simp only [IsNear, above.ne', false_or, not_lt]

theorem text_near (canonical : Canonical significand exponent)
    (near : IsNear ((significand : ℚ) * 2 ^ exponent)) :
    ∃ word, Numeral .decimal word ∧
      (finite negative significand exponent).text = signText negative ++ word := by
  cases significand with
  | zero => exact ⟨['0', '.', '0'], @Numeral.point ['0'] ['0'] (by simp) (by simp), rfl⟩
  | succ rest =>
    have near := (isNear_shortest canonical (Nat.succ_pos rest)).mpr near
    exact ⟨_, Decimal.text_near near, rfl⟩

theorem text_far (canonical : Canonical significand exponent)
    (far : ¬ IsNear ((significand : ℚ) * 2 ^ exponent)) :
    0 < significand ∧ ∃ kind word power, Numeral kind word ∧
      (power < 0 ↔ (significand : ℚ) * 2 ^ exponent < 1) ∧
        (finite negative significand exponent).text =
          signText negative ++ (word ++ 'e' :: intText power) := by
  cases significand with
  | zero => exact absurd (.inl (by simp)) far
  | succ rest =>
    have positive : 0 < rest + 1 := Nat.succ_pos rest
    have far' := mt (isNear_shortest canonical positive).mp far
    rcases Decimal.text_far far' with ⟨kind, word, numeral, same⟩
    refine ⟨positive, kind, word, _, numeral, ?_, congrArg (signText negative ++ ·) same⟩
    have low := RoundingRange.pointPlace_lt_iff canonical positive
    have high := RoundingRange.pointPlace_le_iff canonical positive
    have least : (10 : ℚ) ^ (-4 : Int) < 1 := by norm_num
    have most : (1 : ℚ) < 10 ^ (16 : Int) := by norm_num
    rw [Decimal.IsNear, not_and_or, not_le, not_le] at far'
    simp only [Decimal.smallestPointPlace, Decimal.largestPointPlace] at low high far'
    rcases far' with small | large
    · have below := (low.mp small).trans least
      exact iff_of_true (by omega) below
    · have above := most.trans_le (not_lt.mp (mt high.mpr (not_le.mpr large)))
      exact iff_of_false (by omega) above.le.not_gt

theorem abs_of_value {value : ℚ}
    (parts : (finite negative significand exponent).value? = some value) :
    |value| = significand * 2 ^ exponent ∧
      (0 < significand → (value < 0 ↔ negative = true)) := by
  have unit : (0 : ℚ) < 2 ^ exponent := zpow_pos two_pos _
  have natural : (0 : ℚ) ≤ significand := Nat.cast_nonneg _
  obtain rfl := Option.some.inj parts
  rw [abs_mul, abs_of_pos unit]
  constructor
  · cases negative with
    | false => simp
    | true => simp
  · intro nonzero
    have positive : (0 : ℚ) < significand := Nat.cast_pos.mpr nonzero
    cases negative with
    | false => simpa using mul_nonneg natural unit.le
    | true => simpa using mul_pos positive unit

end Binary

section Texts

variable {x : Float} {negative : Bool} {significand : Nat} {exponent : Int}

theorem not_isFloatLiteral {text : String} {kind : Kind} {small : Bool}
    (cuts : CutsInto text (signKinds negative ++ kind :: powerKinds small)) :
    ¬ IsFloatLiteral text := by
  rintro ⟨_, negative', cuts'⟩
  have same := cuts.unique cuts'
  cases negative <;> cases negative' <;> cases small <;> simp [signKinds, powerKinds] at same

theorem floatText_near (parts : Binary.ofFloat x = .finite negative significand exponent)
    (near : Binary.IsNear ((significand : ℚ) * 2 ^ exponent)) : IsFloatLiteral (floatText x) := by
  rcases Binary.text_near (Binary.canonical_of_ofFloat parts) near with ⟨word, numeral, same⟩
  rw [floatText, parts, same]
  refine ⟨?_, negative, cutsInto_numeral negative numeral⟩
  rw [String.toList_ofList]
  exact List.mem_append_right _ numeral.point_mem

theorem floatText_far (parts : Binary.ofFloat x = .finite negative significand exponent)
    (far : ¬ Binary.IsNear ((significand : ℚ) * 2 ^ exponent)) :
    0 < significand ∧ ∃ kind ∈ [Kind.number, Kind.decimal], CutsInto (floatText x)
      (signKinds negative ++ kind :: powerKinds ((significand : ℚ) * 2 ^ exponent < 1)) := by
  rcases Binary.text_far (Binary.canonical_of_ofFloat parts) far with
    ⟨positive, kind, word, power, numeral, small, same⟩
  refine ⟨positive, kind, ?_, ?_⟩
  · cases numeral with
    | plain => exact List.mem_cons_self
    | point => exact List.mem_cons_of_mem _ List.mem_cons_self
  · rw [floatText, parts, same, ← decide_eq_decide.mpr small]
    exact cutsInto_power negative numeral power

/-- A finite number is printed as a float literal of the language, and shown as one in an outline, if
it is zero or its magnitude is at least `10 ^ -4` and below `10 ^ 16`. All others are printed with a
power of ten, which is cut from the number and becomes a name. -/
theorem float_text_keeps_point (x : Float) (fixed : Bool) (value : ℚ)
    (finite : (Binary.ofFloat x).value? = some value) :
    let text := Arithmetic.text (⟨.float x, fixed⟩ : Number)
    (∀ flag pos depth, (Expr.number (.float x) flag pos).outline depth =
        [⟨depth, "Number " ++ text ++ if flag then " (fixed)" else ""⟩]) ∧
      (IsFloatLiteral text ↔
        value = 0 ∨ 10 ^ (-4 : Int) ≤ |value| ∧ |value| < 10 ^ (16 : Int)) ∧
      (¬ IsFloatLiteral text → ∃ kind ∈ [Kind.number, Kind.decimal],
        CutsInto text (signKinds (value < 0) ++ kind :: powerKinds (|value| < 1))) := by
  intro text
  cases parts : Binary.ofFloat x with
  | nan =>
    rw [parts] at finite
    cases finite
  | infinite negative =>
    rw [parts] at finite
    cases finite
  | finite negative significand exponent =>
    rw [parts] at finite
    rcases Binary.abs_of_value finite with ⟨size, sign⟩
    have near : (value = 0 ∨ 10 ^ (-4 : Int) ≤ |value| ∧ |value| < 10 ^ (16 : Int)) ↔
        Binary.IsNear ((significand : ℚ) * 2 ^ exponent) := by
      rw [← size, Binary.IsNear, abs_eq_zero]
    refine ⟨fun _ _ _ => rfl, ?_, ?_⟩
    · rw [near]
      constructor
      · intro literal
        by_contra far
        rcases floatText_far parts far with ⟨_, kind, _, cuts⟩
        exact not_isFloatLiteral cuts literal
      · exact floatText_near parts
    · intro other
      have far := mt (floatText_near parts) other
      rcases floatText_far parts far with ⟨positive, kind, listed, cuts⟩
      refine ⟨kind, listed, ?_⟩
      rw [size, show decide (value < 0) = negative from by simp [sign positive]]
      exact cuts

theorem negative_fraction_keeps_point :
    (Binary.ofFloat (-2.5)).value? = some (-5 / 2) ∧
      Arithmetic.text (⟨.float (-2.5), false⟩ : Number) = "-2.5" ∧ IsFloatLiteral "-2.5" := by
  have parts : Binary.ofFloat (-2.5) = .finite true 5629499534213120 (-51) := by decide +kernel
  have value : (Binary.ofFloat (-2.5)).value? = some (-5 / 2) := by
    rw [parts, Binary.value?]
    norm_num
  have text : Arithmetic.text (⟨.float (-2.5), false⟩ : Number) = "-2.5" := by decide +kernel
  have literal := (float_text_keeps_point (-2.5) false (-5 / 2) value).2.1
  rw [text] at literal
  exact ⟨value, text, literal.mpr (.inr (by norm_num))⟩

theorem large_float_loses_point :
    (Binary.ofFloat 1e16).value? = some (10 ^ 16) ∧
      Arithmetic.text (⟨.float 1e16, false⟩ : Number) = "1e16" ∧ '.' ∉ "1e16".toList ∧
        ¬ IsFloatLiteral "1e16" := by
  have parts : Binary.ofFloat 1e16 = .finite false 5000000000000000 1 := by decide +kernel
  have text : Arithmetic.text (⟨.float 1e16, false⟩ : Number) = "1e16" := by decide +kernel
  have pointless : '.' ∉ "1e16".toList := by decide
  refine ⟨?_, text, pointless, fun literal => pointless literal.1⟩
  rw [parts, Binary.value?]
  norm_num

end Texts

end Calculator

import Calculator.Proofs.Lexer.Spelling
import Calculator.Proofs.Number.Reading

/-!
How written numbers are cut. Digits are one token, with or without a point among them, and a minus
sign in front of them is a token of its own.
-/

namespace Calculator

def signTokens (negative : Bool) (pos : Nat) : List Token :=
  if negative then [⟨.operator .sub, "-", pos⟩] else []

namespace Lexer

open Pattern

variable {skips : Bool} {text word tail : List Char} {tokens : List Token}
  {ending : Except LexError Nat} {pos : Nat}

theorem longest_minus (rest : List Char) : Longest ('-' :: rest) ['-'] := by
  have single : ∀ symbol ∈ ['\n'] :: symbols, symbol.head? = some '-' → symbol = ['-'] := by decide
  have listed : ['-'] ∈ ['\n'] :: symbols := by decide
  refine ⟨by simp, ⟨rest, rfl⟩, accepted_iff.mpr (.inr (.inr (.inr (.inr listed)))), ?_⟩
  intro other nonempty begins accepted
  rcases accepted_start nonempty begins accepted with ⟨letter, _⟩ | ⟨figure, _⟩ | ⟨_, listed⟩
  · exact absurd letter (by decide)
  · exact absurd figure (by decide)
  · rw [single other listed (head_begins nonempty begins)]

theorem classify_minus (skips : Bool) :
    (standard skips).classify ['-'] = some (.operator .sub) := by
  revert skips
  decide

section Numerals

variable {kind : Kind}

theorem figures_of_digits (figures : ∀ c ∈ word, c.isDigit) : ∀ c ∈ word, digits.contains c :=
  fun c member => digits_contains.mpr (figures c member)

theorem classify_numeral (numeral : Numeral kind word) :
    (standard skips).classify word = some kind := by
  cases numeral with
  | plain nonempty figures =>
    exact classify_number.mpr (Pattern.accepts_number.mpr ⟨nonempty, figures_of_digits figures⟩)
  | @point whole fraction nonempty figures =>
    rcases List.forall_mem_append.mp (figures_of_digits figures) with ⟨front, back⟩
    rcases List.exists_cons_of_ne_nil nonempty with ⟨c, rest, rfl⟩
    rcases List.forall_mem_cons.mp back with ⟨here, back⟩
    exact classify_decimal.mpr (Pattern.accepts_decimal.mpr ⟨whole, c, rest, rfl, front, here, back⟩)

theorem longest_plain (nonempty : word ≠ []) (figures : ∀ c ∈ word, digits.contains c)
    (stops : ∀ c ∈ tail.head?, startOf c ≠ .figure) : Longest (word ++ tail) word := by
  have plain : ∀ c ∈ tail.head?, ¬ digits.contains c :=
    fun c first digit => stops c first (startOf_figure.mpr (.inl digit))
  refine ⟨nonempty, List.prefix_append word tail, ?_, ?_⟩
  · exact accepted_iff.mpr (.inr (.inr (.inl (Pattern.accepts_number.mpr ⟨nonempty, figures⟩))))
  · intro other more begins accepted
    rcases List.exists_cons_of_ne_nil nonempty with ⟨c, rest, rfl⟩
    have figure : startOf c = .figure := startOf_figure.mpr (.inl (figures c List.mem_cons_self))
    rcases accepted_figure figure more begins accepted with pointed | digital
    · rcases Pattern.accepts_decimal.mp pointed with ⟨whole, d, fraction, rfl, front, _⟩
      rcases begins with ⟨back, same⟩
      -- The point would stand right behind the digits.
      rw [List.append_assoc, List.cons_append] at same
      have behind := congrArg (List.dropWhile digits.contains) same
      rw [(takeWhile_append_stop figures plain).2,
        (takeWhile_append_stop front (by simp; decide)).2] at behind
      exact absurd rfl (stops '.' (by rw [← behind]; rfl))
    · have within := length_le_takeWhile begins (Pattern.accepts_number.mp digital).2
      rwa [(takeWhile_append_stop figures plain).1] at within

/-- A number is the longest word if neither a digit nor a point follows. -/
theorem longest_numeral (numeral : Numeral kind word)
    (stops : ∀ c ∈ tail.head?, startOf c ≠ .figure) : Longest (word ++ tail) word := by
  cases numeral with
  | plain nonempty figures => exact longest_plain nonempty (figures_of_digits figures) stops
  | @point whole fraction nonempty figures =>
    rcases List.forall_mem_append.mp (figures_of_digits figures) with ⟨front, back⟩
    rcases List.exists_cons_of_ne_nil nonempty with ⟨c, rest, rfl⟩
    rcases List.forall_mem_cons.mp back with ⟨here, back⟩
    have plain : ∀ d ∈ tail.head?, ¬ digits.contains d :=
      fun d first digit => stops d first (startOf_figure.mpr (.inl digit))
    have longest : Longest (whole ++ '.' :: c :: (rest ++ tail)) _ := longest_point front here
    rw [(takeWhile_append_stop back plain).1] at longest
    rwa [List.append_assoc, List.cons_append, List.cons_append]

end Numerals

theorem Lexes.signed (negative : Bool)
    (later : Lexes skips ⟨text, pos + byteCount (signText negative)⟩ tokens ending) :
    Lexes skips ⟨signText negative ++ text, pos⟩ (signTokens negative pos ++ tokens) ending := by
  cases negative with
  | false => exact later
  | true => exact .here (longest_minus text) (classify_minus skips) later

theorem lexes_numeral {kind : Kind} (skips negative : Bool) (numeral : Numeral kind word) :
    Lexes skips (.start (String.ofList (signText negative ++ word)))
      (signTokens negative 0 ++ [⟨kind, String.ofList word, 0 + byteCount (signText negative)⟩])
      (.ok (0 + byteCount (signText negative) + byteCount word)) := by
  have known : (standard skips).classify word = some kind := classify_numeral numeral
  rw [Scan.start, String.toList_ofList]
  exact .signed negative (.single (nonempty_of_known known) known)

end Lexer

end Calculator

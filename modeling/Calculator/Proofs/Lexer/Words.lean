import Mathlib.Data.List.TakeWhile
import Calculator.Lexer.Standard
import Calculator.Proofs.Pattern.Plans

/-!
The words of the standard table: what each kind of rule finds at the start of a text, and which
words it accepts when they stand alone.
-/

namespace Calculator

namespace Pattern

/-- The best match at the start of a text. -/
def found (pattern : Pattern) (text : List Char) : Option Cursor :=
  (pattern.ends (.start text)).head?

theorem firstEnd?_start (pattern : Pattern) (text : List Char) :
    pattern.firstEnd? (.start text) = pattern.found text :=
  pattern.firstEnd?_eq _

def digits : CharClass := .between '0' '9'

def nameStarts : CharClass := .ofRanges [('A', 'Z'), ('_', '_'), ('a', 'z')]

def nameParts : CharClass := .ofRanges [('0', '9'), ('A', 'Z'), ('_', '_'), ('a', 'z')]

section Literals

variable {word text tail : List Char}

theorem ends_literal (nonempty : word ≠ []) (here : Cursor) :
    (literal word).ends here = endsAfter here (planOf (word.map char ++ [])) := by
  cases word with
  | nil => exact absurd rfl nonempty
  | cons c word =>
    rw [List.append_nil]
    exact ends_chain here

theorem found_literal (nonempty : word ≠ []) :
    (literal word).found (word ++ tail) = some ⟨word.reverse, tail⟩ := by
  rw [found, ends_literal nonempty, Cursor.start, endsAfter_literal, planOf, endsAfter_nil,
    List.append_nil]
  rfl

theorem found_literal_absent (nonempty : word ≠ []) (absent : ¬ word <+: text) :
    (literal word).found text = none := by
  rw [found, ends_literal nonempty, Cursor.start, endsAfter_literal_absent absent]
  rfl

theorem accepts_literal (nonempty : word ≠ []) : (literal word).accepts text ↔ text = word := by
  rw [accepts_iff]
  by_cases begins : word <+: text
  · obtain ⟨tail, rfl⟩ := begins
    rw [ends_literal nonempty, Cursor.start, endsAfter_literal, planOf, endsAfter_nil]
    simp
  · rw [ends_literal nonempty, Cursor.start, endsAfter_literal_absent begins]
    simp
    rintro rfl
    exact begins List.prefix_rfl

end Literals

section Words

variable {word text tail : List Char}

theorem parts_literal (word : List Char) : (literal word).parts = word.map char := by
  rw [literal]
  cases word with
  | nil => rfl
  | cons c word =>
    induction word generalizing c with
    | nil => rfl
    | cons d word ih =>
      rw [List.map_cons, List.map_cons, chain, parts]
      · rw [← List.map_cons, ih]
        rfl
      · simp

theorem wholeWord_eq_chain (word : List Char) :
    wholeWord word = chain (word.map char ++ [.border .boundary]) := by
  rw [wholeWord, sequence, List.flatMap_cons, parts_literal]
  rfl

theorem ends_wholeWord (nonempty : word ≠ []) (here : Cursor) :
    (wholeWord word).ends here =
      endsAfter here (planOf (word.map char ++ [.border .boundary])) := by
  cases word with
  | nil => exact absurd rfl nonempty
  | cons c word =>
    rw [wholeWord_eq_chain]
    exact ends_chain here

theorem isWordChar_of_part {c : Char} (part : nameParts.contains c) : isWordChar c := by
  have le : ∀ a b : Char, a ≤ b ↔ a.toNat ≤ b.toNat := fun _ _ => Iff.rfl
  simp only [nameParts, CharClass.contains, CharClass.ofRanges, List.map_cons, List.map_nil,
    List.any_cons, List.any_nil, Bool.or_false, Bool.or_eq_true, Bool.and_eq_true,
    decide_eq_true_eq, ← le] at part
  have ascii : c.toNat < 128 := by
    simp only [le, Char.reduceToNat] at part
    omega
  rw [isWordChar, if_pos ascii]
  simp only [isAsciiWordChar, Bool.or_eq_true, Bool.and_eq_true, decide_eq_true_eq, beq_iff_eq]
  rcases part with digit | upper | line | lower
  · exact .inl (.inr digit)
  · exact .inl (.inl (.inr upper))
  · exact .inr (Char.le_antisymm line.2 line.1)
  · exact .inl (.inl (.inl lower))

theorem meets_boundary (nonempty : word ≠ []) (parts : ∀ c ∈ word, nameParts.contains c) :
    Cursor.meets ⟨word.reverse, tail⟩ .boundary ↔ ∀ c ∈ tail.head?, ¬ isWordChar c := by
  have before : word.reverse.head?.any isWordChar = true := by
    rw [List.head?_reverse, List.getLast?_eq_some_getLast nonempty, Option.any_some]
    exact isWordChar_of_part (parts _ (List.getLast_mem nonempty))
  simp only [Cursor.meets, before]
  cases tail with
  | nil => simp
  | cons c tail => cases here : isWordChar c <;> simp [here]

theorem found_wholeWord {stop : Cursor} (nonempty : word ≠ [])
    (parts : ∀ c ∈ word, nameParts.contains c) (here : (wholeWord word).found text = some stop) :
    ∃ tail, text = word ++ tail ∧ stop = ⟨word.reverse, tail⟩ ∧
      ∀ c ∈ tail.head?, ¬ isWordChar c := by
  rw [found, ends_wholeWord nonempty, Cursor.start] at here
  by_cases begins : word <+: text
  · obtain ⟨tail, rfl⟩ := begins
    rw [endsAfter_literal, endsAfter_border, List.append_nil] at here
    split at here
    · next alone =>
        refine ⟨tail, rfl, ?_, (meets_boundary nonempty parts).mp alone⟩
        exact (Option.some.inj here).symm
    · cases here
  · rw [endsAfter_literal_absent begins] at here
    cases here

theorem accepts_wholeWord (nonempty : word ≠ []) (parts : ∀ c ∈ word, nameParts.contains c) :
    (wholeWord word).accepts text ↔ text = word := by
  rw [accepts_iff, ends_wholeWord nonempty, Cursor.start]
  constructor
  · rintro ⟨stop, member, finished⟩
    by_cases begins : word <+: text
    · obtain ⟨tail, rfl⟩ := begins
      rw [endsAfter_literal, endsAfter_border] at member
      split at member
      · rw [List.mem_singleton] at member
        subst member
        obtain rfl : tail = [] := finished
        exact List.append_nil word
      · exact absurd member List.not_mem_nil
    · rw [endsAfter_literal_absent begins] at member
      exact absurd member List.not_mem_nil
  · rintro rfl
    have alone : Cursor.meets ⟨text.reverse, []⟩ .boundary :=
      (meets_boundary nonempty parts).mpr (by simp)
    have member := endsAfter_literal text [] [] [.border .boundary]
    rw [List.append_nil, List.append_nil, endsAfter_border, if_pos alone] at member
    exact ⟨⟨text.reverse, []⟩, by rw [member]; exact List.mem_singleton.mpr rfl, rfl⟩

end Words

section Names

variable {text rest : List Char} {c : Char}

def name : Pattern := .seq nameStart (.star namePart)

theorem ends_name (here : Cursor) :
    name.ends here = endsAfter here (planOf [.oneOf nameStarts, .star (.oneOf nameParts)]) :=
  @ends_chain nameStarts [.star (.oneOf nameParts)] here

theorem found_name : name.found (c :: rest) =
    if nameStarts.contains c then
      some ⟨(rest.takeWhile nameParts.contains).reverse ++ [c], rest.dropWhile nameParts.contains⟩
    else none := by
  rw [found, ends_name, Cursor.start, endsAfter_oneOf_cons]
  split
  · rw [endsAfter_star, head?_stretch]
  · rfl

theorem accepts_name : name.accepts text ↔
    ∃ c rest, text = c :: rest ∧ nameStarts.contains c ∧ ∀ d ∈ rest, nameParts.contains d := by
  rw [accepts_iff, ends_name, Cursor.start]
  cases text with
  | nil => simp [endsAfter_oneOf_nil]
  | cons c rest =>
    rw [endsAfter_oneOf_cons]
    split
    · next starts =>
        rw [endsAfter_star, exists_stretch_iff]
        constructor
        · intro parts
          exact ⟨c, rest, rfl, starts, parts⟩
        · rintro ⟨_, _, ⟨rfl, rfl⟩, _, parts⟩
          exact parts
    · next other => simp [other]

end Names

section Numbers

variable {text rest : List Char} {c : Char}

def number : Pattern := .plus digit

theorem found_number : number.found (c :: rest) =
    if digits.contains c then
      some ⟨(rest.takeWhile digits.contains).reverse ++ [c], rest.dropWhile digits.contains⟩
    else none := by
  have ends : number.ends (.start (c :: rest)) =
      endsAfter ⟨[], c :: rest⟩ (planOf [.plus (.oneOf digits)]) := ends_plus _
  rw [found, ends, endsAfter_plus_cons]
  split
  · rw [head?_stretch]
  · rfl

theorem accepts_number : number.accepts text ↔ text ≠ [] ∧ ∀ c ∈ text, digits.contains c := by
  have ends : number.ends (.start text) = endsAfter ⟨[], text⟩ (planOf [.plus (.oneOf digits)]) :=
    ends_plus _
  rw [accepts_iff, ends]
  cases text with
  | nil => simp [endsAfter_plus_nil]
  | cons c rest =>
    rw [endsAfter_plus_cons]
    split
    · next here => simp [exists_stretch_iff, here]
    · next other => simp [other]

def decimal : Pattern := .seq (.star digit) (.seq (.char '.') (.plus digit))

theorem not_point {c : Char} (here : digits.contains c) : ¬ (CharClass.just '.').contains c := by
  rw [CharClass.contains_just]
  intro point
  rw [beq_iff_eq.mp point] at here
  exact absurd here (by decide)

theorem ends_decimal (text : List Char) :
    decimal.ends (.start text) = endsAfter
      ⟨(text.takeWhile digits.contains).reverse ++ [], text.dropWhile digits.contains⟩
        (planOf [.oneOf (.just '.'), .plus (.oneOf digits)]) :=
  @ends_star_chain digits [] text (.just '.') [.plus (.oneOf digits)] fun _ here => not_point here

theorem ends_point (whole fraction : List Char) (front : ∀ d ∈ whole, digits.contains d)
    (here : digits.contains c) :
    decimal.ends (.start (whole ++ '.' :: c :: fraction)) =
      stretch digits (c :: '.' :: whole.reverse) fraction := by
  have point : ¬ digits.contains '.' := by decide
  have stops : (whole ++ '.' :: c :: fraction).takeWhile digits.contains = whole := by
    rw [List.takeWhile_append_of_pos front, List.takeWhile_cons_of_neg point, List.append_nil]
  have goesOn :
      (whole ++ '.' :: c :: fraction).dropWhile digits.contains = '.' :: c :: fraction := by
    rw [List.dropWhile_append_of_pos front, List.dropWhile_cons_of_neg point]
  rw [ends_decimal, stops, goesOn, endsAfter_oneOf_cons, CharClass.contains_just,
    if_pos (beq_self_eq_true '.'), endsAfter_plus_cons, if_pos here, List.append_nil]

theorem exists_point {stop : Cursor} (member : stop ∈ decimal.ends (.start text)) :
    ∃ whole c fraction, text = whole ++ '.' :: c :: fraction ∧
      (∀ d ∈ whole, digits.contains d) ∧ digits.contains c := by
  have same : text.takeWhile digits.contains ++ text.dropWhile digits.contains = text :=
    List.takeWhile_append_dropWhile
  have front : ∀ d ∈ text.takeWhile digits.contains, digits.contains d :=
    fun d taken => List.mem_takeWhile_imp taken
  rw [ends_decimal] at member
  match rest : text.dropWhile digits.contains with
  | [] =>
    rw [rest, endsAfter_oneOf_nil] at member
    exact absurd member List.not_mem_nil
  | [d] =>
    rw [rest, endsAfter_oneOf_cons, endsAfter_plus_nil, ite_self] at member
    exact absurd member List.not_mem_nil
  | d :: c :: fraction =>
    rw [rest, endsAfter_oneOf_cons, CharClass.contains_just, endsAfter_plus_cons] at member
    split at member
    · next point =>
        split at member
        · next here =>
            refine ⟨_, c, fraction, ?_, front, here⟩
            rw [← beq_iff_eq.mp point, ← rest, same]
        · exact absurd member List.not_mem_nil
    · exact absurd member List.not_mem_nil

theorem found_decimal (whole fraction : List Char) (front : ∀ d ∈ whole, digits.contains d)
    (here : digits.contains c) :
    decimal.found (whole ++ '.' :: c :: fraction) =
      some ⟨(fraction.takeWhile digits.contains).reverse ++ c :: '.' :: whole.reverse,
        fraction.dropWhile digits.contains⟩ := by
  rw [found, ends_point whole fraction front here, head?_stretch]

theorem accepts_decimal : decimal.accepts text ↔
    ∃ whole c fraction, text = whole ++ '.' :: c :: fraction ∧ (∀ d ∈ whole, digits.contains d) ∧
      digits.contains c ∧ ∀ d ∈ fraction, digits.contains d := by
  rw [accepts_iff]
  constructor
  · rintro ⟨stop, member, finished⟩
    obtain ⟨whole, c, fraction, rfl, front, here⟩ := exists_point member
    rw [ends_point whole fraction front here] at member
    exact ⟨whole, c, fraction, rfl, front, here, exists_stretch_iff.mp ⟨stop, member, finished⟩⟩
  · rintro ⟨whole, c, fraction, rfl, front, here, back⟩
    rw [ends_point whole fraction front here]
    exact exists_stretch_iff.mpr back

end Numbers

end Pattern

end Calculator

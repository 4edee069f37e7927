import Calculator.Proofs.Lexer.Outcome
import Calculator.Proofs.Lexer.Table

/-!
The standard lexer takes the longest word that a rule accepts. The rules are tried in their order
and the first one that finds anything wins, so this rests on the order of the table: at a letter all
rules that find anything find the same word, at a digit or a point numbers with a point come first,
and no symbol begins with an earlier one.
-/

namespace Calculator

namespace Lexer

open Pattern

/-- The longest beginning of a text that is accepted alone. -/
structure Longest (text word : List Char) : Prop where
  nonempty : word ≠ []
  begins : word <+: text
  accepted : Accepted word
  longest : ∀ other, other ≠ [] → other <+: text → Accepted other → other.length ≤ word.length

section Lists

variable {α β : Type} {accepted : α → Bool} {front tail text : List α}

theorem length_le_takeWhile (begins : front <+: text) (all : ∀ c ∈ front, accepted c) :
    front.length ≤ (text.takeWhile accepted).length := by
  obtain ⟨tail, rfl⟩ := begins
  rw [List.takeWhile_append_of_pos all, List.length_append]
  omega

theorem takeWhile_append_stop (all : ∀ c ∈ front, accepted c)
    (stops : ∀ c ∈ tail.head?, ¬ accepted c) :
    (front ++ tail).takeWhile accepted = front ∧ (front ++ tail).dropWhile accepted = tail := by
  rw [List.takeWhile_append_of_pos all, List.dropWhile_append_of_pos all]
  cases tail with
  | nil => simp
  | cons c tail =>
    have stop := stops c rfl
    rw [List.takeWhile_cons_of_neg stop, List.dropWhile_cons_of_neg stop]
    simp

theorem findSome?_of_same {find : α → Option β} {result : β} {list : List α}
    (same : ∀ item ∈ list, ∀ value, find item = some value → value = result) {item : α}
    (member : item ∈ list) (finds : find item = some result) :
    list.findSome? find = some result := by
  cases found : list.findSome? find with
  | none => rw [List.findSome?_eq_none_iff.mp found item member] at finds; cases finds
  | some value =>
    obtain ⟨other, member, finds⟩ := List.exists_of_findSome?_eq_some found
    rw [same other member value finds]

end Lists

section Cases

variable {c : Char} {rest : List Char}

theorem found_letter (starts : nameStarts.contains c) :
    (patterns.findSome? fun pattern => pattern.found (c :: rest)) =
      some ⟨((c :: rest).takeWhile nameParts.contains).reverse,
        (c :: rest).dropWhile nameParts.contains⟩ := by
  have letter := startOf_letter.mpr starts
  have named : name.found (c :: rest) =
      some ⟨((c :: rest).takeWhile nameParts.contains).reverse,
        (c :: rest).dropWhile nameParts.contains⟩ := by
    rw [found_name, if_pos starts, List.takeWhile_cons_of_pos (part_of_start starts),
      List.dropWhile_cons_of_pos (part_of_start starts), List.reverse_cons]
  refine findSome?_of_same ?_ (mem_patterns.mpr (.inr (.inr (.inr (.inl rfl))))) named
  intro pattern member stop finds
  rcases mem_patterns.mp member with ⟨word, listed, rfl⟩ | rfl | rfl | rfl | ⟨symbol, listed, rfl⟩
  · obtain ⟨nonempty, parts⟩ := words_parts word listed
    obtain ⟨tail, same, rfl, alone⟩ := found_wholeWord nonempty parts finds
    have stops : ∀ d ∈ tail.head?, ¬ nameParts.contains d :=
      fun d first part => alone d first (isWordChar_of_part part)
    obtain ⟨taken, left⟩ := takeWhile_append_stop parts stops
    rw [same, taken, left]
  · exact absurd (letter.symm.trans (start_decimal finds)) (by decide)
  · exact absurd (letter.symm.trans (start_number finds)) (by decide)
  · exact (Option.some.inj (named.symm.trans finds)).symm
  · exact absurd (letter.symm.trans (start_symbol listed finds)) (by decide)

theorem longest_letter (starts : nameStarts.contains c) :
    Longest (c :: rest) ((c :: rest).takeWhile nameParts.contains) := by
  have letter := startOf_letter.mpr starts
  have part := part_of_start starts
  refine ⟨?_, List.takeWhile_prefix _, ?_, ?_⟩
  · rw [List.takeWhile_cons_of_pos part]
    exact List.cons_ne_nil _ _
  · rw [accepted_iff, List.takeWhile_cons_of_pos part]
    refine .inr (.inr (.inr (.inl (accepts_name.mpr ⟨c, _, rfl, starts, ?_⟩))))
    exact fun d taken => List.mem_takeWhile_imp taken
  · intro other nonempty begins accepted
    rcases accepted_start nonempty begins accepted with ⟨_, parts⟩ | ⟨figure, _⟩ | ⟨mark, _⟩
    · exact length_le_takeWhile begins parts
    · exact absurd (letter.symm.trans figure) (by decide)
    · exact absurd (letter.symm.trans mark) (by decide)

theorem words_none (other : startOf c ≠ .letter) :
    ((words.map wholeWord).findSome? fun pattern => pattern.found (c :: rest)) = none := by
  rw [List.findSome?_eq_none_iff]
  intro pattern member
  obtain ⟨word, listed, rfl⟩ := List.mem_map.mp member
  rw [Option.eq_none_iff_forall_ne_some]
  intro stop finds
  exact other (start_word listed finds)

theorem name_none (other : startOf c ≠ .letter) : name.found (c :: rest) = none := by
  rw [Option.eq_none_iff_forall_ne_some]
  intro stop finds
  exact other (start_name finds)

theorem symbols_none (other : startOf c ≠ .mark) :
    ((['\n'] :: symbols).findSome? fun symbol => (literal symbol).found (c :: rest)) = none := by
  rw [List.findSome?_eq_none_iff]
  intro symbol listed
  rw [Option.eq_none_iff_forall_ne_some]
  intro stop finds
  exact other (start_symbol listed finds)

theorem numbers_none (other : startOf c ≠ .figure) :
    decimal.found (c :: rest) = none ∧ number.found (c :: rest) = none := by
  rw [Option.eq_none_iff_forall_ne_some, Option.eq_none_iff_forall_ne_some]
  constructor
  · intro stop finds
    exact other (start_decimal finds)
  · intro stop finds
    exact other (start_number finds)

theorem found_nameless (other : startOf c ≠ .letter) :
    (patterns.findSome? fun pattern => pattern.found (c :: rest)) =
      ((literal ['\n']).found (c :: rest)).or ((decimal.found (c :: rest)).or
        ((number.found (c :: rest)).or
          (symbols.findSome? fun symbol => (literal symbol).found (c :: rest)))) := by
  rw [patterns, List.findSome?_append, words_none other, Option.none_or, List.findSome?_cons,
    List.findSome?_cons, List.findSome?_cons, List.findSome?_cons, name_none other,
    List.findSome?_map]
  cases (literal ['\n']).found (c :: rest) with
  | some stop => rfl
  | none =>
    cases decimal.found (c :: rest) with
    | some stop => rfl
    | none => cases number.found (c :: rest) <;> rfl

theorem found_figure (figure : startOf c = .figure) :
    (patterns.findSome? fun pattern => pattern.found (c :: rest)) =
      (decimal.found (c :: rest)).or (number.found (c :: rest)) := by
  have nothing := @symbols_none c rest (by rw [figure]; decide)
  rw [List.findSome?_cons] at nothing
  rw [found_nameless (by rw [figure]; decide)]
  cases line : (literal ['\n']).found (c :: rest) with
  | some stop => rw [line] at nothing; cases nothing
  | none =>
    rw [line] at nothing
    simp only at nothing
    rw [nothing, Option.none_or, Option.or_none]

theorem found_mark (mark : startOf c = .mark) :
    (patterns.findSome? fun pattern => pattern.found (c :: rest)) =
      (['\n'] :: symbols).findSome? fun symbol => (literal symbol).found (c :: rest) := by
  obtain ⟨noDecimal, noNumber⟩ := @numbers_none c rest (by rw [mark]; decide)
  rw [found_nameless (by rw [mark]; decide), noDecimal, noNumber, Option.none_or, Option.none_or,
    List.findSome?_cons]
  cases (literal ['\n']).found (c :: rest) <;> rfl

end Cases

section Symbols

variable {text : List Char} {list : List (List Char)} {stop : Cursor}

/-- Where no item of a list begins with an earlier one, the first that a text begins with is the
longest. -/
theorem first_symbol_longest (nonempty : ∀ symbol ∈ list, symbol ≠ [])
    (apart : list.Pairwise fun earlier later => ¬ earlier <+: later)
    (finds : (list.findSome? fun symbol => (literal symbol).found text) = some stop) :
    ∃ symbol ∈ list, ∃ tail, text = symbol ++ tail ∧ stop = ⟨symbol.reverse, tail⟩ ∧
      ∀ other ∈ list, other <+: text → other.length ≤ symbol.length := by
  induction list with
  | nil => cases finds
  | cons first list ih =>
    obtain ⟨earlier, apart⟩ := List.pairwise_cons.mp apart
    have here : first ≠ [] := nonempty first List.mem_cons_self
    by_cases begins : first <+: text
    · obtain ⟨tail, rfl⟩ := begins
      rw [List.findSome?_cons, found_literal here] at finds
      refine ⟨first, List.mem_cons_self, tail, rfl, (Option.some.inj finds).symm, ?_⟩
      intro other member begins
      rcases List.mem_cons.mp member with rfl | later
      · exact Nat.le_refl _
      · by_contra longer
        exact earlier other later (List.prefix_of_prefix_length_le
          (List.prefix_append first tail) begins (by omega))
    · rw [List.findSome?_cons, found_literal_absent here begins] at finds
      obtain ⟨symbol, member, tail, same, stops, longest⟩ :=
        ih (fun symbol member => nonempty symbol (List.mem_cons_of_mem _ member)) apart finds
      refine ⟨symbol, List.mem_cons_of_mem _ member, tail, same, stops, ?_⟩
      intro other member begins'
      rcases List.mem_cons.mp member with rfl | later
      · exact absurd begins' begins
      · exact longest other later begins'

theorem symbol_absent (nonempty : ∀ symbol ∈ list, symbol ≠ [])
    (nothing : (list.findSome? fun symbol => (literal symbol).found text) = none) :
    ∀ symbol ∈ list, ¬ symbol <+: text := by
  rintro symbol member ⟨tail, rfl⟩
  have finds := List.findSome?_eq_none_iff.mp nothing symbol member
  rw [found_literal (nonempty symbol member)] at finds
  cases finds

end Symbols

section Numbers

variable {c : Char} {rest whole fraction other : List Char}

theorem accepted_figure (figure : startOf c = .figure) (nonempty : other ≠ [])
    (begins : other <+: c :: rest) (accepted : Accepted other) :
    decimal.accepts other ∨ number.accepts other := by
  rcases accepted_start nonempty begins accepted with ⟨letter, _⟩ | ⟨_, accepts⟩ | ⟨mark, _⟩
  · exact absurd (letter.symm.trans figure) (by decide)
  · exact accepts
  · exact absurd (mark.symm.trans figure) (by decide)

theorem takeWhile_point (front : ∀ d ∈ whole, digits.contains d) :
    (whole ++ '.' :: fraction).takeWhile digits.contains = whole := by
  have stops : ∀ d ∈ ('.' :: fraction).head?, ¬ digits.contains d := by
    rintro d ⟨⟩
    decide
  exact (takeWhile_append_stop front stops).1

theorem longest_point (front : ∀ d ∈ whole, digits.contains d) (here : digits.contains c) :
    Longest (whole ++ '.' :: c :: fraction)
      (whole ++ '.' :: c :: fraction.takeWhile digits.contains) := by
  have taken : ∀ d ∈ fraction.takeWhile digits.contains, digits.contains d :=
    fun d member => List.mem_takeWhile_imp member
  refine ⟨by simp, ?_, ?_, ?_⟩
  · rw [List.prefix_append_right_inj, List.cons_prefix_cons, List.cons_prefix_cons]
    exact ⟨rfl, rfl, List.takeWhile_prefix _⟩
  · exact accepted_iff.mpr (.inr (.inl
      (accepts_decimal.mpr ⟨whole, c, _, rfl, front, here, taken⟩)))
  · intro other nonempty begins accepted
    simp only [List.length_append, List.length_cons]
    cases text : whole ++ '.' :: c :: fraction with
    | nil => simp at text
    | cons first rest =>
      rw [text] at begins
      rcases accepted_figure (start_point front text.symm) nonempty begins accepted with
        accepts | accepts
      · obtain ⟨whole', d, fraction', rfl, front', _, back⟩ := accepts_decimal.mp accepts
        obtain ⟨tail, same⟩ := begins
        -- Both have the same digits in front of the point, which is the first in the text.
        rw [← text, List.append_assoc, List.cons_append, List.cons_append] at same
        have wholes := congrArg (List.takeWhile digits.contains) same
        rw [takeWhile_point front', takeWhile_point front] at wholes
        subst wholes
        obtain ⟨rfl, fractions⟩ := List.cons.inj (List.cons.inj (List.append_cancel_left same)).2
        have shorter := length_le_takeWhile ⟨tail, fractions⟩ back
        simp only [List.length_append, List.length_cons]
        omega
      · have shorter := length_le_takeWhile begins (accepts_number.mp accepts).2
        rw [← text, takeWhile_point front] at shorter
        omega

theorem longest_digits (here : digits.contains c) (noDecimal : decimal.found (c :: rest) = none) :
    Longest (c :: rest) ((c :: rest).takeWhile digits.contains) := by
  have figure := startOf_figure.mpr (.inl here)
  refine ⟨?_, List.takeWhile_prefix _, ?_, ?_⟩
  · rw [List.takeWhile_cons_of_pos here]
    exact List.cons_ne_nil _ _
  · rw [accepted_iff]
    refine .inr (.inr (.inl (accepts_number.mpr ⟨?_, fun d taken => List.mem_takeWhile_imp taken⟩)))
    rw [List.takeWhile_cons_of_pos here]
    exact List.cons_ne_nil _ _
  · intro other nonempty begins accepted
    rcases accepted_figure figure nonempty begins accepted with accepts | accepts
    · obtain ⟨whole, d, fraction, rfl, front, here, _⟩ := accepts_decimal.mp accepts
      obtain ⟨tail, same⟩ := begins
      rw [List.append_assoc, List.cons_append, List.cons_append] at same
      rw [← same, found_decimal whole (fraction ++ tail) front here] at noDecimal
      cases noDecimal
    · exact length_le_takeWhile begins (accepts_number.mp accepts).2

end Numbers

section Union

variable {text : List Char} {stop : Cursor}

theorem longest_figure {c : Char} {rest : List Char}
    (finds : (decimal.found (c :: rest)).or (number.found (c :: rest)) = some stop) :
    Longest (c :: rest) stop.taken.reverse := by
  cases point : decimal.found (c :: rest) with
  | some found =>
    obtain ⟨whole, d, fraction, same, front, here⟩ := exists_point (List.mem_of_head? point)
    rw [same, found_decimal whole fraction front here, Option.some_or] at finds
    rw [same, ← Option.some.inj finds]
    simpa using longest_point front here
  | none =>
    rw [point, Option.none_or, found_number] at finds
    split at finds
    · next here =>
        rw [← Option.some.inj finds]
        simpa [here] using longest_digits here point
    · cases finds

theorem longest_mark {c : Char} {rest : List Char} (mark : startOf c = .mark)
    (finds : ((['\n'] :: symbols).findSome? fun symbol => (literal symbol).found (c :: rest)) =
      some stop) : Longest (c :: rest) stop.taken.reverse := by
  have nonempty : ∀ symbol ∈ ['\n'] :: symbols, symbol ≠ [] :=
    fun symbol listed => (symbols_start symbol listed).1
  obtain ⟨symbol, listed, tail, same, rfl, longest⟩ :=
    first_symbol_longest nonempty symbols_pairwise finds
  rw [List.reverse_reverse]
  refine ⟨nonempty symbol listed, ⟨tail, same.symm⟩, ?_, ?_⟩
  · exact accepted_iff.mpr (.inr (.inr (.inr (.inr listed))))
  · intro other nonempty begins accepted
    rcases accepted_start nonempty begins accepted with ⟨letter, _⟩ | ⟨figure, _⟩ | ⟨_, listed⟩
    · exact absurd (letter.symm.trans mark) (by decide)
    · exact absurd (figure.symm.trans mark) (by decide)
    · exact longest other listed begins

/-- The best match of all rules together is the longest word that one of them accepts. -/
theorem found_longest {skips : Bool} (nonempty : text ≠ [])
    (finds : (standard skips).union.found text = some stop) : Longest text stop.taken.reverse := by
  rw [found_union] at finds
  cases text with
  | nil => exact absurd rfl nonempty
  | cons c rest =>
    cases start : startOf c with
    | letter =>
      have starts := startOf_letter.mp start
      rw [found_letter starts] at finds
      rw [← Option.some.inj finds, List.reverse_reverse]
      exact longest_letter starts
    | figure =>
      rw [found_figure start] at finds
      exact longest_figure finds
    | mark =>
      rw [found_mark start] at finds
      exact longest_mark start finds

theorem found_none {skips : Bool} (nothing : (standard skips).union.found text = none) :
    ∀ word, word ≠ [] → word <+: text → ¬ Accepted word := by
  intro word nonempty begins accepted
  rw [found_union] at nothing
  cases text with
  | nil => exact nonempty (List.prefix_nil.mp begins)
  | cons c rest =>
    rcases accepted_start nonempty begins accepted with
      ⟨start, _⟩ | ⟨start, accepts⟩ | ⟨start, listed⟩
    · rw [found_letter (startOf_letter.mp start)] at nothing
      cases nothing
    · rw [found_figure start, Option.or_eq_none_iff] at nothing
      rcases accepts with accepts | accepts
      · obtain ⟨whole, d, fraction, rfl, front, here, _⟩ := accepts_decimal.mp accepts
        obtain ⟨tail, same⟩ := begins
        rw [List.append_assoc, List.cons_append, List.cons_append] at same
        rw [← same, found_decimal whole (fraction ++ tail) front here] at nothing
        cases nothing.1
      · have here := (accepts_number.mp accepts).2 c
          (List.mem_of_mem_head? (head_begins nonempty begins))
        rw [found_number, if_pos here] at nothing
        cases nothing.2
    · rw [found_mark start] at nothing
      exact symbol_absent (fun symbol listed => (symbols_start symbol listed).1) nothing word listed
        begins

end Union

theorem Longest.unique {text word other : List Char} (longest : Longest text word)
    (longest' : Longest text other) : word = other := by
  have le := longest.longest other longest'.nonempty longest'.begins longest'.accepted
  have ge := longest'.longest word longest.nonempty longest.begins longest.accepted
  exact (List.prefix_of_prefix_length_le longest.begins longest'.begins ge).eq_of_length (by omega)

theorem standard_outcome (skips : Bool) (scan : Scan)
    (more : ((standard skips).skip scan).rest ≠ []) :
    let here := (standard skips).skip scan
    (∃ word tail rule, here.rest = word ++ tail ∧ Longest here.rest word ∧
        standardRules.find? (fun rule => rule.accepts word) = some rule ∧
        (standard skips).next scan =
          (.ok ⟨rule.kind, String.ofList word, here.pos⟩, ⟨tail, here.pos + byteCount word⟩)) ∨
      (∀ word, word ≠ [] → word <+: here.rest → ¬ Accepted word) ∧
        (standard skips).next scan =
          (.error (.noMatch (String.ofList (here.rest.take 10)) here.pos), here) := by
  intro here
  have outcome := (standard skips).next_outcome scan
  generalize (standard skips).next scan = drawn at outcome ⊢
  obtain ⟨result, after⟩ := drawn
  cases outcome with
  | ended nothing => exact absurd nothing more
  | noMatch _ absent =>
    refine .inr ⟨?_, rfl⟩
    cases found : (standard skips).union.found here.rest with
    | none => exact found_none found
    | some stop =>
      have longest := found_longest more found
      rw [← firstEnd?_start] at found
      rw [absent stop found, List.reverse_nil] at longest
      exact absurd rfl longest.nonempty
  | @unclassified word tail text nonempty found unknown =>
    -- What all rules together find is accepted alone, though the border behind it was tested in the
    -- text; so some rule classifies it.
    rw [firstEnd?_start] at found
    obtain ⟨rule, member, accepts⟩ := (found_longest more found).accepted
    rw [List.reverse_reverse] at accepts
    have known := List.find?_eq_none.mp (Option.map_eq_none_iff.mp unknown) rule member
    exact absurd accepts known
  | @token word tail kind text nonempty found known =>
    rw [firstEnd?_start] at found
    have longest := found_longest more found
    rw [List.reverse_reverse] at longest
    obtain ⟨rule, first, rfl⟩ := Option.map_eq_some_iff.mp known
    exact .inl ⟨word, tail, rule, text, longest, first, rfl⟩

theorem identifier_rule :
    ∀ rule ∈ standardRules, rule.branches = [name] → rule.kind = .identifier := by
  decide

theorem kind_of_name {rule : Rule} {word : List Char} (member : rule ∈ standardRules)
    (accepts : rule.accepts word) (named : name.accepts word) (free : word ∉ words) :
    rule.kind = .identifier := by
  obtain ⟨pattern, listed, branches, same⟩ := pattern_of_rule member
  rw [same word] at accepts
  obtain ⟨c, rest, rfl, starts, _⟩ := accepts_name.mp named
  have letter := startOf_letter.mpr starts
  rcases mem_patterns.mp listed with ⟨other, words, rfl⟩ | rfl | rfl | rfl | ⟨symbol, marks, rfl⟩
  · exact absurd ((accepts_words words).mp accepts ▸ words) free
  · obtain ⟨whole, d, fraction, text, front, _⟩ := accepts_decimal.mp accepts
    exact absurd (letter.symm.trans (start_point front text)) (by decide)
  · have digit := (accepts_number.mp accepts).2 c List.mem_cons_self
    exact absurd digit (not_digit_of_start starts)
  · exact identifier_rule rule member branches
  · obtain ⟨nonempty, mark⟩ := symbols_start symbol marks
    rw [← (accepts_literal nonempty).mp accepts] at mark
    exact absurd (letter.symm.trans (mark c rfl)) (by decide)

theorem longest_name {word tail : List Char} (named : name.accepts word)
    (stops : ∀ c ∈ tail.head?, ¬ nameParts.contains c) : Longest (word ++ tail) word := by
  obtain ⟨c, rest, rfl, starts, _⟩ := accepts_name.mp named
  have longest : Longest (c :: (rest ++ tail))
      ((c :: (rest ++ tail)).takeWhile nameParts.contains) :=
    longest_letter starts
  rw [← List.cons_append, (takeWhile_append_stop (name_parts named) stops).1] at longest
  exact longest

theorem words_known : ∀ word ∈ words,
    (standardRules.find? fun rule => rule.accepts word).map Rule.kind ≠ some .identifier := by
  decide

section Draws

variable {skips : Bool} {scan : Scan} {token : Token} {after : Scan}

theorem next_eq_ok (more : ((standard skips).skip scan).rest ≠ []) :
    (standard skips).next scan = (.ok token, after) ↔
      ∃ word tail rule, ((standard skips).skip scan).rest = word ++ tail ∧
        Longest ((standard skips).skip scan).rest word ∧
        standardRules.find? (fun rule => rule.accepts word) = some rule ∧
        token = ⟨rule.kind, String.ofList word, ((standard skips).skip scan).pos⟩ ∧
        after = ⟨tail, ((standard skips).skip scan).pos + byteCount word⟩ := by
  have outcome := standard_outcome skips scan more
  constructor
  · intro drawn
    rcases outcome with ⟨word, tail, rule, text, longest, first, same⟩ | ⟨_, same⟩
    · cases same.symm.trans drawn
      exact ⟨word, tail, rule, text, longest, first, rfl, rfl⟩
    · cases same.symm.trans drawn
  · rintro ⟨word, tail, rule, text, longest, first, rfl, rfl⟩
    rcases outcome with ⟨other, tail', rule', text', longest', first', same⟩ | ⟨nothing, _⟩
    · obtain rfl := longest'.unique longest
      obtain rfl := List.append_cancel_left (text'.symm.trans text)
      obtain rfl := Option.some.inj (first'.symm.trans first)
      exact same
    · exact absurd longest.accepted (nothing word longest.nonempty longest.begins)

theorem next_eq_error {error : LexError} (more : ((standard skips).skip scan).rest ≠ []) :
    (standard skips).next scan = (.error error, after) ↔
      (∀ word, word ≠ [] → word <+: ((standard skips).skip scan).rest → ¬ Accepted word) ∧
        error = .noMatch (String.ofList (((standard skips).skip scan).rest.take 10))
          ((standard skips).skip scan).pos ∧
        after = (standard skips).skip scan := by
  have outcome := standard_outcome skips scan more
  constructor
  · intro failed
    rcases outcome with ⟨_, _, _, _, _, _, same⟩ | ⟨nothing, same⟩
    · cases same.symm.trans failed
    · cases same.symm.trans failed
      exact ⟨nothing, rfl, rfl⟩
  · rintro ⟨nothing, rfl, rfl⟩
    rcases outcome with ⟨word, _, _, _, longest, _, _⟩ | ⟨_, same⟩
    · exact absurd longest.accepted (nothing word longest.nonempty longest.begins)
    · exact same

theorem not_mem_words_of_identifier (more : ((standard skips).skip scan).rest ≠ [])
    (drawn : (standard skips).next scan = (.ok token, after)) (kind : token.kind = .identifier) :
    token.text.toList ∉ words := by
  intro listed
  obtain ⟨word, tail, rule, _, _, first, rfl, _⟩ := (next_eq_ok more).mp drawn
  rw [String.toList_ofList] at listed
  have known := words_known word listed
  rw [first] at known
  exact known (congrArg some kind)

theorem next_of_name {word tail : List Char} (more : ((standard skips).skip scan).rest ≠ [])
    (text : ((standard skips).skip scan).rest = word ++ tail) (named : name.accepts word)
    (stops : ∀ c ∈ tail.head?, ¬ nameParts.contains c) (free : word ∉ words) :
    (standard skips).next scan =
      (.ok ⟨.identifier, String.ofList word, ((standard skips).skip scan).pos⟩,
        ⟨tail, ((standard skips).skip scan).pos + byteCount word⟩) := by
  have longest : Longest ((standard skips).skip scan).rest word := text ▸ longest_name named stops
  obtain ⟨accepting, member, accepts⟩ := longest.accepted
  cases first : standardRules.find? fun rule => rule.accepts word with
  | none => exact absurd accepts (List.find?_eq_none.mp first accepting member)
  | some rule =>
    have accepts' : rule.accepts word :=
      List.find?_some (p := fun rule : Rule => rule.accepts word) first
    have kind := kind_of_name (List.mem_of_find?_eq_some first) accepts' named free
    refine (next_eq_ok more).mpr ⟨word, tail, rule, text, longest, first, ?_, rfl⟩
    rw [kind]

end Draws

/-- The standard lexer takes the longest beginning that some rule accepts alone, with the kind of
the first such rule; where there is none, nothing matches. A word that is no name is never drawn as
one, and a name that only begins with such a word is drawn as a whole. -/
theorem standard_maximal_munch (skips : Bool) (scan : Scan)
    (more : ((standard skips).skip scan).rest ≠ []) :
    let lexer := standard skips
    let here := lexer.skip scan
    (∀ token after, lexer.next scan = (.ok token, after) ↔
      ∃ word tail rule, here.rest = word ++ tail ∧ Longest here.rest word ∧
        standardRules.find? (fun rule => rule.accepts word) = some rule ∧
        token = ⟨rule.kind, String.ofList word, here.pos⟩ ∧
        after = ⟨tail, here.pos + byteCount word⟩) ∧
    (∀ error after, lexer.next scan = (.error error, after) ↔
      (∀ word, word ≠ [] → word <+: here.rest → ¬ Accepted word) ∧
        error = .noMatch (String.ofList (here.rest.take 10)) here.pos ∧ after = here) ∧
    (∀ token after, lexer.next scan = (.ok token, after) → token.kind = .identifier →
      token.text.toList ∉ words) ∧
    (∀ word tail, here.rest = word ++ tail → name.accepts word →
      (∀ c ∈ tail.head?, ¬ nameParts.contains c) → word ∉ words →
        lexer.next scan =
          (.ok ⟨.identifier, String.ofList word, here.pos⟩,
            ⟨tail, here.pos + byteCount word⟩)) := by
  intro lexer here
  refine ⟨?_, ?_, ?_, ?_⟩
  · exact fun _ _ => next_eq_ok more
  · exact fun _ _ => next_eq_error more
  · exact fun _ _ drawn kind => not_mem_words_of_identifier more drawn kind
  · exact fun _ _ text named stops free => next_of_name more text named stops free

theorem settle_maximal_munch :
    ((standard true).skip (.start " settle")).rest ≠ [] ∧
      (standard true).next (.start " settle") = (.ok ⟨.identifier, "settle", 1⟩, ⟨[], 7⟩) := by
  have more : ((standard true).skip (.start " settle")).rest ≠ [] := by decide
  refine ⟨more, ?_⟩
  have munch := (standard_maximal_munch true (.start " settle") more).2.2.2
  exact munch ['s', 'e', 't', 't', 'l', 'e'] [] (by decide) (by decide) (by simp) (by decide)

end Lexer

end Calculator

import Calculator.Proofs.Lexer.Words

/-!
The table of the standard lexer: its patterns in their order, what they accept together, and at
which characters each kind of them begins.
-/

namespace Calculator

namespace Lexer

open Pattern

section Table

def words : List (List Char) := [
  ['s', 'e', 't'], ['i', 'f'], ['t', 'h', 'e', 'n'], ['e', 'l', 's', 'e'], ['f', 'u', 'n', 'c'],
  ['p', 'r', 'i', 'n', 't'], ['r', 'e', 's', 'e', 't'], ['i', 'n', 't'], ['f', 'l', 'o', 'a', 't']]

def symbols : List (List Char) := [
  ['*', '*'], ['!', '='], ['=', '='], ['>', '='], ['<', '='], ['>', '>'], ['<', '<'], ['&'], ['^'],
  ['|'], ['<'], ['>'], ['+'], ['-'], ['*'], ['/'], ['('], [')'], ['\x7b'], ['\x7d'], ['='], [';'],
  [',']]

def patterns : List Pattern :=
  words.map wholeWord ++ literal ['\n'] :: decimal :: number :: name :: symbols.map literal

theorem map_branches_standardRules :
    standardRules.map Rule.branches = patterns.map fun pattern => [pattern] := rfl

theorem union_standard (skips : Bool) : (standard skips).union = anyOf patterns := rfl

theorem words_parts : ∀ word ∈ words, word ≠ [] ∧ ∀ c ∈ word, nameParts.contains c := by
  have checked : ∀ word ∈ words, word ≠ [] ∧ word.all nameParts.contains = true := by decide
  intro word listed
  exact (checked word listed).imp_right List.all_eq_true.mp

/-- What a character begins: a name or a word, a number, or a symbol. -/
inductive Start
  | letter | figure | mark
  deriving DecidableEq, Repr

def startOf (c : Char) : Start :=
  if nameStarts.contains c then .letter else if digits.contains c ∨ c = '.' then .figure else .mark

theorem words_start : ∀ word ∈ words, ∀ c ∈ word.head?, startOf c = .letter := by
  have checked : ∀ word ∈ words, word.head?.map startOf = some .letter := by decide
  intro word listed c first
  have start := checked word listed
  rw [Option.mem_def.mp first, Option.map_some] at start
  exact Option.some.inj start

theorem symbols_start : ∀ symbol ∈ ['\n'] :: symbols,
    symbol ≠ [] ∧ ∀ c ∈ symbol.head?, startOf c = .mark := by
  have checked : ∀ symbol ∈ ['\n'] :: symbols,
      symbol ≠ [] ∧ symbol.head?.map startOf = some .mark := by decide
  intro symbol listed
  refine (checked symbol listed).imp_right fun start c first => ?_
  rw [Option.mem_def.mp first, Option.map_some] at start
  exact Option.some.inj start

theorem symbols_pairwise :
    (['\n'] :: symbols).Pairwise fun earlier later => ¬ earlier <+: later := by
  decide

theorem mem_patterns {pattern : Pattern} : pattern ∈ patterns ↔
    (∃ word ∈ words, wholeWord word = pattern) ∨ pattern = decimal ∨ pattern = number ∨
      pattern = name ∨ ∃ symbol ∈ ['\n'] :: symbols, literal symbol = pattern := by
  simp only [patterns, List.mem_append, List.mem_map, List.mem_cons]
  constructor
  · rintro (word | rfl | rfl | rfl | rfl | ⟨symbol, member, rfl⟩)
    · exact .inl word
    · exact .inr (.inr (.inr (.inr ⟨_, .inl rfl, rfl⟩)))
    · exact .inr (.inl rfl)
    · exact .inr (.inr (.inl rfl))
    · exact .inr (.inr (.inr (.inl rfl)))
    · exact .inr (.inr (.inr (.inr ⟨_, .inr member, rfl⟩)))
  · rintro (word | rfl | rfl | rfl | ⟨symbol, rfl | member, rfl⟩)
    · exact .inl word
    · exact .inr (.inr (.inl rfl))
    · exact .inr (.inr (.inr (.inl rfl)))
    · exact .inr (.inr (.inr (.inr (.inl rfl))))
    · exact .inr (.inl rfl)
    · exact .inr (.inr (.inr (.inr (.inr ⟨_, member, rfl⟩))))

theorem barred_patterns : ∀ pattern ∈ patterns, pattern.Barred := by
  intro pattern member
  rcases mem_patterns.mp member with ⟨word, listed, rfl⟩ | rfl | rfl | rfl | ⟨symbol, listed, rfl⟩
  · cases word with
    | nil => exact absurd rfl (words_parts _ listed).1
    | cons c word =>
      rw [wholeWord_eq_chain]
      exact barred_chain _ _
  · exact fun here => ⟨_, @opening_star_chain digits (.just '.') [.plus digit] here⟩
  · exact fun here => ⟨_, rfl⟩
  · exact barred_chain nameStarts [.star namePart]
  · cases symbol with
    | nil => exact absurd rfl (symbols_start _ listed).1
    | cons c symbol => exact barred_chain _ _

theorem found_union (skips : Bool) (text : List Char) :
    (standard skips).union.found text = patterns.findSome? fun pattern => pattern.found text := by
  rw [union_standard, found, ends_anyOf barred_patterns (by decide), List.head?_flatMap]
  rfl

end Table

/-- A rule of the standard table accepts a word that stands alone. -/
def Accepted (word : List Char) : Prop := ∃ rule ∈ standardRules, rule.accepts word

theorem pattern_of_rule {rule : Rule} (member : rule ∈ standardRules) :
    ∃ pattern ∈ patterns, rule.branches = [pattern] ∧
      ∀ word, rule.accepts word = pattern.accepts word := by
  have listed : rule.branches ∈ patterns.map fun pattern => [pattern] := by
    rw [← map_branches_standardRules]
    exact List.mem_map_of_mem member
  obtain ⟨pattern, present, same⟩ := List.mem_map.mp listed
  obtain ⟨_, kind⟩ := rule
  subst same
  exact ⟨pattern, present, rfl, Rule.accepts_of pattern kind⟩

theorem rule_of_pattern {pattern : Pattern} (member : pattern ∈ patterns) :
    ∃ rule ∈ standardRules, rule.branches = [pattern] ∧
      ∀ word, rule.accepts word = pattern.accepts word := by
  have listed : [pattern] ∈ standardRules.map Rule.branches := by
    rw [map_branches_standardRules]
    exact List.mem_map_of_mem member
  obtain ⟨rule, listed, same⟩ := List.mem_map.mp listed
  obtain ⟨_, kind⟩ := rule
  subst same
  exact ⟨_, listed, rfl, Rule.accepts_of pattern kind⟩

theorem accepted_iff_patterns {word : List Char} :
    Accepted word ↔ ∃ pattern ∈ patterns, pattern.accepts word := by
  constructor
  · rintro ⟨rule, member, accepts⟩
    obtain ⟨pattern, member, _, same⟩ := pattern_of_rule member
    exact ⟨pattern, member, same word ▸ accepts⟩
  · rintro ⟨pattern, member, accepts⟩
    obtain ⟨rule, member, _, same⟩ := rule_of_pattern member
    exact ⟨rule, member, (same word).trans accepts⟩

theorem accepts_words {word text : List Char} (listed : word ∈ words) :
    (wholeWord word).accepts text ↔ text = word :=
  accepts_wholeWord (words_parts word listed).1 (words_parts word listed).2

theorem accepted_iff {word : List Char} : Accepted word ↔
    word ∈ words ∨ decimal.accepts word ∨ number.accepts word ∨ name.accepts word ∨
      word ∈ ['\n'] :: symbols := by
  rw [accepted_iff_patterns]
  constructor
  · rintro ⟨pattern, member, accepts⟩
    rcases mem_patterns.mp member with ⟨other, listed, rfl⟩ | rfl | rfl | rfl | ⟨other, listed, rfl⟩
    · rw [(accepts_words listed).mp accepts]
      exact .inl listed
    · exact .inr (.inl accepts)
    · exact .inr (.inr (.inl accepts))
    · exact .inr (.inr (.inr (.inl accepts)))
    · rw [(accepts_literal (symbols_start other listed).1).mp accepts]
      exact .inr (.inr (.inr (.inr listed)))
  · rintro (listed | accepts | accepts | accepts | listed)
    · exact ⟨_, mem_patterns.mpr (.inl ⟨word, listed, rfl⟩), (accepts_words listed).mpr rfl⟩
    · exact ⟨_, mem_patterns.mpr (.inr (.inl rfl)), accepts⟩
    · exact ⟨_, mem_patterns.mpr (.inr (.inr (.inl rfl))), accepts⟩
    · exact ⟨_, mem_patterns.mpr (.inr (.inr (.inr (.inl rfl)))), accepts⟩
    · exact ⟨_, mem_patterns.mpr (.inr (.inr (.inr (.inr ⟨word, listed, rfl⟩)))),
        (accepts_literal (symbols_start word listed).1).mpr rfl⟩

section Starts

variable {c : Char} {rest word : List Char} {stop : Cursor}

theorem not_digit_of_start (starts : nameStarts.contains c) : ¬ digits.contains c := by
  simp [nameStarts, digits, CharClass.contains, CharClass.between, CharClass.ofRanges] at starts ⊢
  omega

theorem startOf_letter : startOf c = .letter ↔ nameStarts.contains c := by
  rw [startOf]
  split
  · next starts => simp [starts]
  · next other =>
      split
      · simp [other]
      · simp [other]

theorem startOf_figure : startOf c = .figure ↔ digits.contains c ∨ c = '.' := by
  rw [startOf]
  split
  · next starts =>
      have point : c ≠ '.' := by
        rintro rfl
        exact absurd starts (by decide)
      simp [not_digit_of_start starts, point]
  · next other => split <;> simp [*]

theorem head_begins (nonempty : word ≠ []) (begins : word <+: c :: rest) :
    word.head? = some c := by
  cases word with
  | nil => exact absurd rfl nonempty
  | cons d word => rw [(List.cons_prefix_cons.mp begins).1, List.head?_cons]

theorem start_word (listed : word ∈ words)
    (finds : (wholeWord word).found (c :: rest) = some stop) : startOf c = .letter := by
  obtain ⟨nonempty, parts⟩ := words_parts word listed
  obtain ⟨tail, same, _⟩ := found_wholeWord nonempty parts finds
  exact words_start word listed c (head_begins nonempty ⟨tail, same.symm⟩)

theorem start_name (finds : name.found (c :: rest) = some stop) : startOf c = .letter := by
  rw [found_name] at finds
  split at finds
  · next starts => exact startOf_letter.mpr starts
  · cases finds

theorem start_number (finds : number.found (c :: rest) = some stop) : startOf c = .figure := by
  rw [found_number] at finds
  split at finds
  · next here => exact startOf_figure.mpr (.inl here)
  · cases finds

theorem start_point {whole fraction : List Char} (front : ∀ d ∈ whole, digits.contains d)
    (same : c :: rest = whole ++ '.' :: fraction) : startOf c = .figure := by
  cases whole with
  | nil =>
    cases same
    rfl
  | cons d whole =>
    cases same
    exact startOf_figure.mpr (.inl (front c List.mem_cons_self))

theorem start_decimal (finds : decimal.found (c :: rest) = some stop) : startOf c = .figure := by
  obtain ⟨whole, d, fraction, same, front, _⟩ := exists_point (List.mem_of_head? finds)
  exact start_point front same

theorem start_symbol (listed : word ∈ ['\n'] :: symbols)
    (finds : (literal word).found (c :: rest) = some stop) : startOf c = .mark := by
  obtain ⟨nonempty, marks⟩ := symbols_start word listed
  by_cases begins : word <+: c :: rest
  · exact marks c (head_begins nonempty begins)
  · rw [found_literal_absent nonempty begins] at finds
    cases finds

theorem part_of_start (starts : nameStarts.contains c) : nameParts.contains c := by
  simp [nameStarts, nameParts, CharClass.contains, CharClass.ofRanges] at starts ⊢
  omega

theorem name_parts (accepts : name.accepts word) : ∀ d ∈ word, nameParts.contains d := by
  obtain ⟨d, tail, rfl, starts, parts⟩ := accepts_name.mp accepts
  exact List.forall_mem_cons.mpr ⟨part_of_start starts, parts⟩

theorem accepted_start (nonempty : word ≠ []) (begins : word <+: c :: rest)
    (accepted : Accepted word) :
    (startOf c = .letter ∧ ∀ d ∈ word, nameParts.contains d) ∨
      (startOf c = .figure ∧ (decimal.accepts word ∨ number.accepts word)) ∨
        (startOf c = .mark ∧ word ∈ ['\n'] :: symbols) := by
  have first : word.head? = some c := head_begins nonempty begins
  rcases accepted_iff.mp accepted with listed | accepts | accepts | accepts | listed
  · exact .inl ⟨words_start word listed c first, (words_parts word listed).2⟩
  · obtain ⟨tail, same⟩ := begins
    obtain ⟨whole, d, fraction, rfl, front, _⟩ := accepts_decimal.mp accepts
    rw [List.append_assoc] at same
    exact .inr (.inl ⟨start_point front same.symm, .inl accepts⟩)
  · have here := (accepts_number.mp accepts).2 c (List.mem_of_mem_head? first)
    exact .inr (.inl ⟨startOf_figure.mpr (.inl here), .inr accepts⟩)
  · obtain ⟨d, tail, rfl, starts, _⟩ := accepts_name.mp accepts
    obtain rfl := Option.some.inj first
    exact .inl ⟨startOf_letter.mpr starts, name_parts accepts⟩
  · exact .inr (.inr ⟨(symbols_start word listed).2 c first, listed⟩)

end Starts

end Lexer

end Calculator

import Calculator.Proofs.Grammar.Expression
import Calculator.Proofs.Lexer.Splicing

/-!
How the kinds of words are written. Most kinds have one spelling; names and numbers have many. Words
that are written with a blank between them are cut apart again.
-/

namespace Calculator

namespace Kind

/-- The spelling of a kind that has only one, and nothing for the other kinds. -/
def spelling : Kind → String
  | keyword word => word.spelling
  | operator op => op.symbol
  | newline => "\n"
  | leftParen => "("
  | rightParen => ")"
  | leftBrace => "\x7b"
  | rightBrace => "\x7d"
  | assign => "="
  | semicolon => ";"
  | comma => ","
  | typeWord | decimal | number | identifier | endOfInput => ""

theorem mem_all (kind : Kind) : kind ∈ all := by
  cases kind with
  | keyword word => cases word <;> decide
  | operator op => cases op <;> decide
  | _ => decide

end Kind

namespace Lexer

open Pattern

variable {skips : Bool} {word : List Char} {kind : Kind}

theorem classify_spelling (skips : Bool) (fixed : kind.spelling ≠ "") :
    (standard skips).classify kind.spelling.toList = some kind := by
  have checked : Kind.all.all (fun kind => kind.spelling == "" ||
      (standard true).classify kind.spelling.toList == some kind) = true := by
    decide +kernel
  have here := List.all_eq_true.mp checked kind kind.mem_all
  simp only [Bool.or_eq_true, beq_iff_eq] at here
  exact here.resolve_left fixed

theorem rule_of_known (known : (standard skips).classify word = some kind) :
    ∃ rule ∈ standardRules, rule.accepts word ∧ rule.kind = kind := by
  rcases Option.map_eq_some_iff.mp known with ⟨rule, first, same⟩
  exact ⟨rule, List.mem_of_find?_eq_some first,
    List.find?_some (p := fun rule : Rule => rule.accepts word) first, same⟩

theorem known_of_rules (accepted : Accepted word)
    (alike : ∀ rule ∈ standardRules, rule.accepts word → rule.kind = kind) :
    (standard skips).classify word = some kind := by
  rcases accepted with ⟨accepting, member, accepts⟩
  cases first : standardRules.find? fun rule => rule.accepts word with
  | none => exact absurd accepts (List.find?_eq_none.mp first accepting member)
  | some rule =>
    have accepts' : rule.accepts word :=
      List.find?_some (p := fun rule : Rule => rule.accepts word) first
    have same := alike rule (List.mem_of_find?_eq_some first) accepts'
    exact (congrArg (Option.map Rule.kind) first).trans (congrArg some same)

theorem classify_identifier : (standard skips).classify word = some .identifier ↔
    name.accepts word ∧ word ∉ words := by
  constructor
  · intro known
    have single : ∀ rule ∈ standardRules, rule.kind = .identifier →
        rule = .of name .identifier := by
      decide
    constructor
    · rcases rule_of_known known with ⟨rule, member, accepts, kind⟩
      rwa [single rule member kind, Rule.accepts_of] at accepts
    · exact fun listed => words_known word listed known
  · rintro ⟨named, free⟩
    exact known_of_rules (accepted_iff.mpr (.inr (.inr (.inr (.inl named)))))
      fun rule member accepts => kind_of_name member accepts named free

theorem decimal_rule : ∀ rule ∈ standardRules, rule.branches = [decimal] → rule.kind = .decimal := by
  decide

theorem number_rule : ∀ rule ∈ standardRules, rule.branches = [number] → rule.kind = .number := by
  decide

theorem kind_of_figure {rule : Rule} {c : Char} {rest : List Char} (member : rule ∈ standardRules)
    (accepts : rule.accepts (c :: rest)) (figure : startOf c = .figure) :
    (decimal.accepts (c :: rest) ∧ rule.kind = .decimal) ∨
      (number.accepts (c :: rest) ∧ rule.kind = .number) := by
  rcases pattern_of_rule member with ⟨pattern, listed, branches, same⟩
  rw [same (c :: rest)] at accepts
  rcases mem_patterns.mp listed with ⟨other, words, rfl⟩ | rfl | rfl | rfl | ⟨symbol, marks, rfl⟩
  · rw [← (accepts_words words).mp accepts] at words
    exact absurd (figure.symm.trans (words_start _ words c rfl)) (by decide)
  · exact .inl ⟨accepts, decimal_rule rule member branches⟩
  · exact .inr ⟨accepts, number_rule rule member branches⟩
  · rcases accepts_name.mp accepts with ⟨d, tail, text, starts, _⟩
    obtain rfl := (List.cons.inj text).1
    exact absurd (figure.symm.trans (startOf_letter.mpr starts)) (by decide)
  · rcases symbols_start symbol marks with ⟨nonempty, mark⟩
    rw [← (accepts_literal nonempty).mp accepts] at mark
    exact absurd (figure.symm.trans (mark c rfl)) (by decide)

theorem not_number_of_decimal (pointed : decimal.accepts word) : ¬ number.accepts word := by
  intro digital
  rcases accepts_decimal.mp pointed with ⟨whole, d, fraction, rfl, _⟩
  exact absurd ((accepts_number.mp digital).2 '.' (by simp)) (by decide)

theorem kind_of_number {rule : Rule} (member : rule ∈ standardRules) (accepts : rule.accepts word)
    (digital : number.accepts word) : rule.kind = .number := by
  rcases accepts_number.mp digital with ⟨nonempty, figures⟩
  rcases List.exists_cons_of_ne_nil nonempty with ⟨c, rest, rfl⟩
  have figure : startOf c = .figure := startOf_figure.mpr (.inl (figures c List.mem_cons_self))
  rcases kind_of_figure member accepts figure with ⟨pointed, _⟩ | ⟨_, kind⟩
  · exact absurd digital (not_number_of_decimal pointed)
  · exact kind

theorem kind_of_decimal {rule : Rule} (member : rule ∈ standardRules) (accepts : rule.accepts word)
    (pointed : decimal.accepts word) : rule.kind = .decimal := by
  rcases accepts_decimal.mp pointed with ⟨whole, d, fraction, text, front, _⟩
  cases word with
  | nil => simp at text
  | cons c rest =>
    rcases kind_of_figure member accepts (start_point front text) with ⟨_, kind⟩ | ⟨digital, _⟩
    · exact kind
    · exact absurd digital (not_number_of_decimal pointed)

theorem classify_number : (standard skips).classify word = some .number ↔
    number.accepts word := by
  constructor
  · intro known
    have single : ∀ rule ∈ standardRules, rule.kind = .number → rule = .of number .number := by
      decide
    rcases rule_of_known known with ⟨rule, member, accepts, kind⟩
    rwa [single rule member kind, Rule.accepts_of] at accepts
  · intro digital
    exact known_of_rules (accepted_iff.mpr (.inr (.inr (.inl digital))))
      fun rule member accepts => kind_of_number member accepts digital

theorem classify_decimal : (standard skips).classify word = some .decimal ↔
    decimal.accepts word := by
  constructor
  · intro known
    have single : ∀ rule ∈ standardRules, rule.kind = .decimal → rule = .of decimal .decimal := by
      decide
    rcases rule_of_known known with ⟨rule, member, accepts, kind⟩
    rwa [single rule member kind, Rule.accepts_of] at accepts
  · intro pointed
    exact known_of_rules (accepted_iff.mpr (.inr (.inl pointed)))
      fun rule member accepts => kind_of_decimal member accepts pointed

theorem classify_typeWord (known : (standard skips).classify word = some .typeWord) :
    word = ['i', 'n', 't'] ∨ word = ['f', 'l', 'o', 'a', 't'] := by
  have single : ∀ rule ∈ standardRules, rule.kind = .typeWord →
      rule = .of (wholeWord ['i', 'n', 't']) .typeWord ∨
        rule = .of (wholeWord ['f', 'l', 'o', 'a', 't']) .typeWord := by
    decide
  rcases rule_of_known known with ⟨rule, member, accepts, kind⟩
  rcases single rule member kind with rfl | rfl
  · rw [Rule.accepts_of] at accepts
    exact .inl ((accepts_words (by decide)).mp accepts)
  · rw [Rule.accepts_of] at accepts
    exact .inr ((accepts_words (by decide)).mp accepts)

/-- A kind that has only one spelling is that of no other word. -/
theorem word_of_kind (known : (standard skips).classify word = some kind)
    (fixed : kind.spelling ≠ "") : word = kind.spelling.toList := by
  have single : ∀ rule ∈ standardRules, rule.kind.spelling ≠ "" →
      (rule = .of (wholeWord rule.kind.spelling.toList) rule.kind ∧
        rule.kind.spelling.toList ∈ words) ∨
      (rule = .of (literal rule.kind.spelling.toList) rule.kind ∧
        rule.kind.spelling.toList ≠ []) := by
    decide +kernel
  rcases rule_of_known known with ⟨rule, member, accepts, rfl⟩
  rcases single rule member fixed with ⟨same, listed⟩ | ⟨same, nonempty⟩
  · rw [same, Rule.accepts_of] at accepts
    exact (accepts_words listed).mp accepts
  · rw [same, Rule.accepts_of] at accepts
    exact (accepts_literal nonempty).mp accepts

theorem digits_contains {c : Char} : digits.contains c ↔ c.isDigit := by
  simp [digits, CharClass.contains, CharClass.between, CharClass.ofRanges, Char.isDigit,
    UInt32.le_iff_toNat_le]

section Words

variable {scan : Scan} {tokens : List Token} {ending : Except LexError Nat}

/-- The text of a token has the kind of the token when it stands alone. -/
def Known (token : Token) : Prop := (standard true).classify token.text.toList = some token.kind

instance (token : Token) : Decidable (Known token) :=
  inferInstanceAs (Decidable (_ = some token.kind))

theorem Lexes.known (lexes : Lexes skips scan tokens ending) : ∀ token ∈ tokens, Known token := by
  induction lexes with
  | ended => exact fun _ member => absurd member List.not_mem_nil
  | stuck => exact fun _ member => absurd member List.not_mem_nil
  | word _ _ known _ ih =>
    refine List.forall_mem_cons.mpr ⟨?_, ih⟩
    rw [Known, String.toList_ofList]
    exact known

theorem Known.spelled {token : Token} (known : Known token) : token.Spelled := by
  constructor
  · intro kind
    rw [Known, kind] at known
    exact (accepts_number.mp (classify_number.mp known)).imp_right
      fun figures c member => digits_contains.mp (figures c member)
  · intro kind
    rw [Known, kind] at known
    rcases accepts_decimal.mp (classify_decimal.mp known) with
      ⟨whole, d, fraction, text, front, here, back⟩
    refine ⟨whole, d :: fraction, text, List.cons_ne_nil d fraction, ?_⟩
    intro c member
    apply digits_contains.mp
    rcases List.mem_append.mp member with member | member
    · exact front c member
    · rcases List.mem_cons.mp member with rfl | member
      · exact here
      · exact back c member

theorem Known.named {token : Token} (known : Known token) (kind : token.kind = .typeWord) :
    (NumberType.ofName? token.text).isSome := by
  rw [Known, kind] at known
  have same : token.text = "int" ∨ token.text = "float" :=
    (classify_typeWord known).imp (String.toList_inj.mp ·) (String.toList_inj.mp ·)
  rcases same with same | same
  all_goals rw [same]; rfl

theorem Known.text_eq {token : Token} (known : Known token) (fixed : token.kind.spelling ≠ "") :
    token.text = token.kind.spelling :=
  String.toList_inj.mp (word_of_kind known fixed)

theorem nonempty_of_known {text : List Char} {kind : Kind}
    (known : (standard skips).classify text = some kind) : text ≠ [] := by
  rintro rfl
  have unknown : ∀ skips, (standard skips).classify [] = none := by decide
  exact absurd ((unknown skips).symm.trans known) (by simp)

def spaced (tokens : List Token) : List Char :=
  [' '].intercalate (tokens.map (·.text.toList))

theorem spaced_cons {token : Token} (more : tokens ≠ []) :
    spaced (token :: tokens) = token.text.toList ++ ' ' :: spaced tokens := by
  rw [spaced, List.map_cons, List.intercalate_cons_of_ne_nil (by simp [more]), spaced]
  simp

def spacedTokens (pos : Nat) : List Token → List Token
  | [] => []
  | token :: tokens =>
      ⟨token.kind, token.text, pos⟩ ::
        spacedTokens (pos + byteCount token.text.toList + byteCount [' ']) tokens

theorem lexes_spaced (known : ∀ token ∈ tokens, Known token) (pos : Nat) :
    Lexes true ⟨spaced tokens, pos⟩ (spacedTokens pos tokens)
      (.ok (pos + byteCount (spaced tokens))) := by
  induction tokens generalizing pos with
  | nil => exact .ended rfl
  | cons token tokens ih =>
    rcases List.forall_mem_cons.mp known with ⟨here, known⟩
    have single : Lexes true ⟨token.text.toList, pos⟩ [⟨token.kind, _, pos⟩] _ :=
      Lexes.single (nonempty_of_known here) here
    rw [String.ofList_toList] at single
    by_cases last : tokens = []
    · subst last
      rw [spaced, List.map_singleton, List.intercalate_singleton]
      exact single
    · have later := ih known (pos + byteCount token.text.toList + byteCount [' '])
      have blank : (standard true).skip
          ⟨[' '] ++ spaced tokens, pos + byteCount token.text.toList⟩ = _ :=
        skip_append_blanks rfl
      have whole := single.append (.inl rfl) (later.of_skip blank.symm)
      have bytes : pos + byteCount token.text.toList + byteCount [' '] + byteCount (spaced tokens) =
          pos + byteCount (token.text.toList ++ ([' '] ++ spaced tokens)) := by
        simp only [byteCount_append, Nat.add_assoc]
      rw [bytes] at whole
      rw [spaced_cons last]
      exact whole

theorem exists_lexes_spaced (known : ∀ token ∈ tokens, Known token) (pos : Nat) :
    ∃ others last, Lexes true ⟨spaced tokens, pos⟩ others (.ok last) ∧
      others.map (·.relocate fun _ => 0) = tokens.map (·.relocate fun _ => 0) := by
  refine ⟨_, _, lexes_spaced known pos, ?_⟩
  clear known
  induction tokens generalizing pos with
  | nil => rfl
  | cons token tokens ih => exact congrArg (List.cons _) (ih _)

end Words

end Lexer

end Calculator

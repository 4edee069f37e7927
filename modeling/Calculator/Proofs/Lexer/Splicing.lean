import Calculator.Proofs.Grammar.Relocation
import Calculator.Proofs.Lexer.Munch
import Calculator.Proofs.Lexer.Tiling

/-!
Sources put together and cut apart. No word of the language contains a blank, and a separator or a
parenthesis is a word of its own. What stands in front of one of these is therefore cut into the same
tokens as if the source ended there, and so is what stands in front of a token.
-/

namespace Calculator

namespace Lexer

open Pattern

/-- The tokens of the standard lexer from a place on, and how they end. -/
inductive Lexes (skips : Bool) : Scan → List Token → Except LexError Nat → Prop
  | ended {scan : Scan} (nothing : ((standard skips).skip scan).rest = []) :
      Lexes skips scan [] (.ok scan.endPos)
  | stuck {scan : Scan} {error : LexError} (more : ((standard skips).skip scan).rest ≠ [])
      (failed : (standard skips).next scan = (.error error, (standard skips).skip scan)) :
      Lexes skips scan [] (.error error)
  | word {scan : Scan} {word tail : List Char} {kind : Kind} {tokens : List Token}
      {ending : Except LexError Nat} (text : ((standard skips).skip scan).rest = word ++ tail)
      (longest : Longest (word ++ tail) word) (known : (standard skips).classify word = some kind)
      (later : Lexes skips ⟨tail, ((standard skips).skip scan).pos + byteCount word⟩ tokens ending) :
      Lexes skips scan (⟨kind, String.ofList word, ((standard skips).skip scan).pos⟩ :: tokens)
        ending

section Tokens

theorem tokens_of_next (lexer : Lexer) (scan : Scan) :
    lexer.tokens scan = if (lexer.skip scan).rest = [] then ([], .ok scan.endPos)
      else match lexer.next scan with
        | (.error error, _) => ([], .error error)
        | (.ok token, after) =>
            (token :: (lexer.tokens after).1, (lexer.tokens after).2) := by
  rw [tokens, next, cut?]
  by_cases nothing : (lexer.skip scan).rest = []
  · rw [if_pos nothing, if_pos (List.isEmpty_iff.mpr nothing)]
  · rw [if_neg nothing, if_neg fun empty => nothing (List.isEmpty_iff.mp empty)]
    cases lexer.cut (lexer.skip scan) <;> rfl

variable {skips : Bool} {scan : Scan} {tokens : List Token} {ending : Except LexError Nat}

theorem next_of_longest {word tail : List Char} {kind : Kind}
    (text : ((standard skips).skip scan).rest = word ++ tail)
    (longest : Longest (word ++ tail) word) (known : (standard skips).classify word = some kind) :
    (standard skips).next scan =
      (.ok ⟨kind, String.ofList word, ((standard skips).skip scan).pos⟩,
        ⟨tail, ((standard skips).skip scan).pos + byteCount word⟩) := by
  have more : ((standard skips).skip scan).rest ≠ [] := by
    rw [text]
    exact List.append_ne_nil_of_left_ne_nil longest.nonempty tail
  rcases Option.map_eq_some_iff.mp known with ⟨rule, first, rfl⟩
  exact (next_eq_ok more).mpr ⟨word, tail, rule, text, text ▸ longest, first, rfl, rfl⟩

theorem Lexes.tokens_eq (lexes : Lexes skips scan tokens ending) :
    (standard skips).tokens scan = (tokens, ending) := by
  induction lexes with
  | ended nothing => rw [tokens_of_next, if_pos nothing]
  | stuck more failed => rw [tokens_of_next, if_neg more, failed]
  | @word scan word tail kind tokens ending text longest known later ih =>
    have more : word ++ tail ≠ [] := List.append_ne_nil_of_left_ne_nil longest.nonempty tail
    rw [tokens_of_next, if_neg (text ▸ more), next_of_longest text longest known]
    simp only [ih]

theorem exists_lexes (skips : Bool) (scan : Scan) :
    Lexes skips scan ((standard skips).tokens scan).1 ((standard skips).tokens scan).2 := by
  induction length : scan.rest.length using Nat.strong_induction_on generalizing scan with
  | _ size ih =>
  rw [tokens_of_next]
  by_cases nothing : ((standard skips).skip scan).rest = []
  · rw [if_pos nothing]
    exact .ended nothing
  · rw [if_neg nothing]
    rcases standard_outcome skips scan nothing with
      ⟨word, tail, rule, text, longest, first, same⟩ | ⟨_, same⟩
    · have kept := (standard skips).length_skip_le scan
      have letters := List.length_pos_iff.mpr longest.nonempty
      have whole := congrArg List.length text
      rw [List.length_append] at whole
      have known : (standard skips).classify word = some rule.kind :=
        congrArg (Option.map Rule.kind) first
      have later := ih tail.length (by omega)
        ⟨tail, ((standard skips).skip scan).pos + byteCount word⟩ rfl
      rw [same]
      exact .word text (text ▸ longest) known later
    · rw [same]
      exact .stuck nothing same

end Tokens

section Words

variable {word : List Char} {c : Char}

/-- Characters that are words by themselves and parts of no other word. -/
def loners : List Char := ['\n', ';', '(', ')']

theorem not_blank_of_part (part : nameParts.contains c) : ¬ isBlank c ∧ c ∉ loners := by
  constructor
  · intro blank
    simp only [isBlank, Bool.or_eq_true, beq_iff_eq] at blank
    rcases blank with ((rfl | rfl) | rfl) | rfl
    all_goals exact absurd part (by decide)
  · intro loner
    simp only [loners, List.mem_cons, List.not_mem_nil, or_false] at loner
    rcases loner with rfl | rfl | rfl | rfl
    all_goals exact absurd part (by decide)

theorem part_of_digit (digit : digits.contains c) : nameParts.contains c := by
  simp [nameParts, digits, CharClass.contains, CharClass.between, CharClass.ofRanges] at digit ⊢
  omega

theorem accepted_plain (accepted : Accepted word) (member : c ∈ word) :
    ¬ isBlank c ∧ (c ∈ loners → word = [c]) := by
  have parts : nameParts.contains c → ¬ isBlank c ∧ (c ∈ loners → word = [c]) := fun part =>
    (not_blank_of_part part).imp_right fun other same => absurd same other
  rcases accepted_iff.mp accepted with listed | accepts | accepts | accepts | listed
  · exact parts ((words_parts word listed).2 c member)
  · rcases accepts_decimal.mp accepts with ⟨whole, d, fraction, rfl, front, here, back⟩
    rcases List.mem_append.mp member with member | member
    · exact parts (part_of_digit (front c member))
    · rcases List.mem_cons.mp member with rfl | member
      · exact ⟨by decide, fun same => absurd same (by decide)⟩
      · rcases List.mem_cons.mp member with rfl | member
        · exact parts (part_of_digit here)
        · exact parts (part_of_digit (back c member))
  · exact parts (part_of_digit ((accepts_number.mp accepts).2 c member))
  · exact parts (name_parts accepts c member)
  · have checked : ∀ symbol ∈ ['\n'] :: symbols,
        symbol.all (fun c => !isBlank c && (!loners.contains c || symbol == [c])) = true := by
      decide
    have here := List.all_eq_true.mp (checked word listed) c member
    simp only [Bool.and_eq_true, Bool.not_eq_true', Bool.or_eq_true, beq_iff_eq] at here
    refine ⟨by simp [here.1], fun loner => here.2.resolve_left ?_⟩
    simp [loner]

def Parts (c : Char) : Prop := isBlank c ∨ c ∈ loners

variable {front back : List Char}

theorem Longest.append (back : List Char) (longest : Longest front word) (parts : Parts c) :
    Longest (front ++ c :: back) word where
  nonempty := longest.nonempty
  begins := longest.begins.trans (List.prefix_append front _)
  accepted := longest.accepted
  longest := by
    intro other nonempty begins accepted
    by_cases inside : other.length ≤ front.length
    · have begins : other <+: front :=
        List.prefix_of_prefix_length_le begins (List.prefix_append front _) inside
      exact longest.longest other nonempty begins accepted
    · have longer : front ++ [c] <+: other := by
        apply List.prefix_of_prefix_length_le _ begins
        · rw [List.length_append, List.length_singleton]
          omega
        · rw [List.append_cons front c back]
          exact List.prefix_append _ back
      have member : c ∈ other := longer.subset (List.mem_append_right front List.mem_cons_self)
      rcases accepted_plain accepted member with ⟨unblank, alone⟩
      have single := alone (parts.resolve_left unblank)
      have letters := List.length_pos_iff.mpr longest.nonempty
      rw [single, List.length_singleton]
      omega

/-- A text may also end anywhere behind the word. -/
theorem Longest.of_prefix {text : List Char} (longest : Longest text word) (begins : word <+: front)
    (within : front <+: text) : Longest front word where
  nonempty := longest.nonempty
  begins := begins
  accepted := longest.accepted
  longest := fun other nonempty start accepted =>
    longest.longest other nonempty (start.trans within) accepted

theorem accepted_of_known {skips : Bool} {kind : Kind}
    (known : (standard skips).classify word = some kind) : Accepted word := by
  rcases Option.map_eq_some_iff.mp known with ⟨rule, first, _⟩
  exact ⟨rule, List.mem_of_find?_eq_some first,
    List.find?_some (p := fun rule : Rule => rule.accepts word) first⟩

theorem longest_loner {rest : List Char} (loner : c ∈ loners) (accepted : Accepted [c]) :
    Longest ([c] ++ rest) [c] := by
  refine ⟨by simp, List.prefix_append _ rest, accepted, ?_⟩
  intro other nonempty begins accepted
  have member : c ∈ other := List.mem_of_mem_head? (Lexer.head_begins nonempty begins)
  rw [(accepted_plain accepted member).2 loner]

theorem longest_self {skips : Bool} {kind : Kind} (nonempty : word ≠ [])
    (known : (standard skips).classify word = some kind) : Longest word word where
  nonempty := nonempty
  begins := List.prefix_refl word
  accepted := accepted_of_known known
  longest := fun _ _ begins _ => begins.length_le

end Words

section Skipping

variable {skips : Bool} {front back : List Char} {pos : Nat}

theorem skip_append (back : List Char) (more : ((standard skips).skip ⟨front, pos⟩).rest ≠ []) :
    (standard skips).skip ⟨front ++ back, pos⟩ =
      ⟨((standard skips).skip ⟨front, pos⟩).rest ++ back,
        ((standard skips).skip ⟨front, pos⟩).pos⟩ := by
  cases skips with
  | false => rfl
  | true =>
    have more : front.dropWhile isBlank ≠ [] := more
    have stops : (front.takeWhile isBlank).length ≠ front.length := by
      intro all
      have whole := List.takeWhile_append_dropWhile (p := isBlank) (l := front)
      have lengths := congrArg List.length whole
      rw [List.length_append] at lengths
      exact more (List.length_eq_zero_iff.mp (by omega))
    simp only [skip, standard, if_true, List.dropWhile_append, List.takeWhile_append,
      List.isEmpty_iff, if_neg more, if_neg stops]

theorem skip_append_blanks (nothing : ((standard skips).skip ⟨front, pos⟩).rest = []) :
    (standard skips).skip ⟨front ++ back, pos⟩ =
      (standard skips).skip ⟨back, pos + byteCount front⟩ := by
  cases skips with
  | false =>
    obtain rfl : front = [] := nothing
    rfl
  | true =>
    have all : ∀ c ∈ front, isBlank c := List.dropWhile_eq_nil_iff.mp nothing
    simp only [skip, standard, if_true, List.dropWhile_append_of_pos all,
      List.takeWhile_append_of_pos all, byteCount_append, Nat.add_assoc]

theorem nil_blanks (skips : Bool) : (standard skips).Blanks [] := by
  cases skips with
  | false => rfl
  | true => exact fun _ member => absurd member List.not_mem_nil

theorem skip_blanks {gap : List Char} (blanks : (standard skips).Blanks gap) :
    ((standard skips).skip ⟨gap, pos⟩).rest = [] := by
  cases skips with
  | false => exact blanks
  | true =>
    have all : ∀ c ∈ gap, isBlank c := blanks
    exact List.dropWhile_eq_nil_iff.mpr all

theorem skip_word {word : List Char} (nonempty : word ≠ []) (accepted : Accepted word) :
    (standard skips).skip ⟨word ++ back, pos⟩ = ⟨word ++ back, pos⟩ := by
  cases skips with
  | false => rfl
  | true =>
    cases word with
    | nil => exact absurd rfl nonempty
    | cons c word =>
      have unblank := (accepted_plain accepted List.mem_cons_self).1
      simp [skip, standard, List.dropWhile_cons_of_neg unblank,
        List.takeWhile_cons_of_neg unblank, byteCount]

theorem skip_to_word {gap word : List Char} (blanks : (standard skips).Blanks gap)
    (nonempty : word ≠ []) (accepted : Accepted word) :
    (standard skips).skip ⟨gap ++ (word ++ back), pos⟩ = ⟨word ++ back, pos + byteCount gap⟩ := by
  rw [skip_append_blanks (skip_blanks blanks), skip_word nonempty accepted]

theorem skip_shift (skips : Bool) (scan : Scan) (bytes : Nat) :
    (standard skips).skip ⟨scan.rest, scan.pos + bytes⟩ =
      ⟨((standard skips).skip scan).rest, ((standard skips).skip scan).pos + bytes⟩ := by
  cases skips with
  | false => rfl
  | true => simp only [skip, standard, if_true, Nat.add_right_comm]

end Skipping

section Splicing

variable {skips : Bool} {tokens others : List Token} {ending : Except LexError Nat}

theorem Lexes.cut {gap word tail : List Char} {kind : Kind} {pos : Nat}
    (blanks : (standard skips).Blanks gap) (longest : Longest (word ++ tail) word)
    (known : (standard skips).classify word = some kind)
    (later : Lexes skips ⟨tail, pos + byteCount gap + byteCount word⟩ tokens ending) :
    Lexes skips ⟨gap ++ (word ++ tail), pos⟩
      (⟨kind, String.ofList word, pos + byteCount gap⟩ :: tokens) ending := by
  have here : (standard skips).skip ⟨gap ++ (word ++ tail), pos⟩ = ⟨_, pos + byteCount gap⟩ :=
    skip_to_word blanks longest.nonempty longest.accepted
  have cut := Lexes.word (congrArg Scan.rest here) longest known (by rw [here]; exact later)
  rw [here] at cut
  exact cut

theorem Lexes.here {word tail : List Char} {kind : Kind} {pos : Nat}
    (longest : Longest (word ++ tail) word) (known : (standard skips).classify word = some kind)
    (later : Lexes skips ⟨tail, pos + byteCount word⟩ tokens ending) :
    Lexes skips ⟨word ++ tail, pos⟩ (⟨kind, String.ofList word, pos⟩ :: tokens) ending :=
  .cut (nil_blanks skips) longest known later

theorem Lexes.of_skip {scan scan' : Scan}
    (same : (standard skips).skip scan = (standard skips).skip scan')
    (lexes : Lexes skips scan tokens ending) : Lexes skips scan' tokens ending := by
  have place : scan.endPos = scan'.endPos := by
    rw [← endPos_skip (standard skips) scan, same, endPos_skip]
  cases lexes with
  | ended nothing =>
    rw [place]
    exact .ended (same ▸ nothing)
  | stuck more failed =>
    rw [next_eq, same, ← next_eq] at failed
    exact .stuck (same ▸ more) failed
  | word text longest known later =>
    rw [same] at text later ⊢
    exact .word text longest known later

theorem endPos_word {scan : Scan} {word tail : List Char}
    (text : ((standard skips).skip scan).rest = word ++ tail) :
    scan.endPos = (⟨tail, ((standard skips).skip scan).pos + byteCount word⟩ : Scan).endPos := by
  rw [← endPos_skip (standard skips) scan, Scan.endPos, text, byteCount_append, Scan.endPos,
    Nat.add_assoc]

theorem Lexes.endPos {scan : Scan} {last : Nat} (lexes : Lexes skips scan tokens (.ok last)) :
    last = scan.endPos := by
  generalize result : Except.ok last = ended at lexes
  induction lexes with
  | ended nothing => exact Except.ok.inj result
  | stuck => cases result
  | word text longest known later ih => exact (ih result).trans (endPos_word text).symm

theorem Lexes.first {scan : Scan} {token : Token}
    (lexes : Lexes skips scan (token :: tokens) ending) :
    ∃ tail, ((standard skips).skip scan).rest = token.text.toList ++ tail ∧
      Longest (token.text.toList ++ tail) token.text.toList ∧
      (standard skips).classify token.text.toList = some token.kind ∧
      Lexes skips ⟨tail, ((standard skips).skip scan).pos + byteCount token.text.toList⟩ tokens
        ending := by
  cases lexes with
  | @word _ word tail _ _ _ text longest known later =>
    rw [String.toList_ofList]
    exact ⟨tail, text, longest, known, later⟩

theorem Lexes.append {scan : Scan} {back : List Char} {c : Char} {last : Nat} (parts : Parts c)
    (lexes : Lexes skips scan tokens (.ok last))
    (later : Lexes skips ⟨c :: back, scan.endPos⟩ others ending) :
    Lexes skips ⟨scan.rest ++ c :: back, scan.pos⟩ (tokens ++ others) ending := by
  generalize result : Except.ok last = ended at lexes
  induction lexes with
  | ended nothing => exact later.of_skip (skip_append_blanks nothing).symm
  | stuck => cases result
  | @word scan word tail kind tokens _ text longest known _ ih =>
    have more : ((standard skips).skip scan).rest ≠ [] := by
      rw [text]
      exact List.append_ne_nil_of_left_ne_nil longest.nonempty tail
    have place := endPos_word text
    have here := skip_append (c :: back) more
    rw [text, List.append_assoc] at here
    have longest' := longest.append back parts
    rw [List.append_assoc] at longest'
    rw [place] at later
    have joined : Lexes skips ⟨scan.rest ++ c :: back, scan.pos⟩
        (⟨kind, String.ofList word, ((standard skips).skip
          ⟨scan.rest ++ c :: back, scan.pos⟩).pos⟩ :: (tokens ++ others)) ending := by
      apply Lexes.word (congrArg Scan.rest here) longest' known
      rw [here]
      exact ih later result
    rw [here] at joined
    exact joined

theorem Lexes.split_nil {scan : Scan} (lexes : Lexes skips scan tokens ending) :
    ∃ before after, scan.rest = before ++ after ∧
      Lexes skips ⟨before, scan.pos⟩ [] (.ok (scan.pos + byteCount before)) ∧
      Lexes skips ⟨after, scan.pos + byteCount before⟩ tokens ending ∧
      (standard skips).skip ⟨after, scan.pos + byteCount before⟩ =
        ⟨after, scan.pos + byteCount before⟩ := by
  rcases skip_spec (standard skips) scan with ⟨gap, text, place, blanks⟩
  have here : (standard skips).skip scan =
      ⟨((standard skips).skip scan).rest, scan.pos + byteCount gap⟩ := by rw [← place]
  have stays := skip_skip (standard skips) scan
  rw [here] at stays
  refine ⟨gap, _, text, .ended (skip_blanks blanks), ?_, stays⟩
  exact lexes.of_skip (here.trans stays.symm)

theorem Lexes.split {scan : Scan} {front back : List Token}
    (lexes : Lexes skips scan (front ++ back) ending) :
    ∃ before after, scan.rest = before ++ after ∧
      Lexes skips ⟨before, scan.pos⟩ front (.ok (scan.pos + byteCount before)) ∧
      Lexes skips ⟨after, scan.pos + byteCount before⟩ back ending ∧
      (standard skips).skip ⟨after, scan.pos + byteCount before⟩ =
        ⟨after, scan.pos + byteCount before⟩ := by
  induction front generalizing scan with
  | nil => exact lexes.split_nil
  | cons token front ih =>
    cases lexes with
    | @word _ word tail kind _ _ text longest known later =>
      rcases skip_spec (standard skips) scan with ⟨gap, whole, place, blanks⟩
      rcases ih later with ⟨before, after, same, first, second, stays⟩
      have same : tail = before ++ after := same
      have longest' : Longest (word ++ before) word := by
        apply longest.of_prefix (List.prefix_append word before)
        rw [same, ← List.append_assoc]
        exact List.prefix_append _ after
      have counts : scan.pos + byteCount gap + byteCount word + byteCount before =
          scan.pos + byteCount (gap ++ (word ++ before)) := by
        simp only [byteCount_append, Nat.add_assoc]
      rw [place, counts] at first second stays
      refine ⟨gap ++ (word ++ before), after, ?_, ?_, second, stays⟩
      · rw [whole, text, same]
        simp only [List.append_assoc]
      · rw [place]
        exact .cut blanks longest' known first

theorem Lexes.shift {scan : Scan} (lexes : Lexes skips scan tokens ending) (bytes : Nat) :
    Lexes skips ⟨scan.rest, scan.pos + bytes⟩ (tokens.map (·.relocate (· + bytes)))
      ((ending.map (· + bytes)).mapError (·.relocate (· + bytes))) := by
  induction lexes with
  | @ended scan nothing =>
    have here := skip_shift skips scan bytes
    have place : (⟨scan.rest, scan.pos + bytes⟩ : Scan).endPos = scan.endPos + bytes := by
      simp only [Scan.endPos]
      omega
    have moved : Lexes skips ⟨scan.rest, scan.pos + bytes⟩ [] (.ok _) :=
      .ended (by rw [here]; exact nothing)
    rw [place] at moved
    exact moved
  | @stuck scan error more failed =>
    have here := skip_shift skips scan bytes
    rcases (next_eq_error more).mp failed with ⟨absent, rfl, _⟩
    have more' : ((standard skips).skip ⟨scan.rest, scan.pos + bytes⟩).rest ≠ [] := by
      rw [here]
      exact more
    apply Lexes.stuck more'
    apply (next_eq_error more').mpr
    rw [here]
    exact ⟨absent, rfl, rfl⟩
  | @word scan word tail kind tokens ending text longest known later ih =>
    have here := skip_shift skips scan bytes
    rw [Nat.add_right_comm] at ih
    have moved : Lexes skips ⟨scan.rest, scan.pos + bytes⟩
        (⟨kind, String.ofList word, ((standard skips).skip ⟨scan.rest, scan.pos + bytes⟩).pos⟩ ::
          tokens.map (·.relocate (· + bytes)))
        ((ending.map (· + bytes)).mapError (·.relocate (· + bytes))) := by
      apply Lexes.word ((congrArg Scan.rest here).trans text) longest known
      rw [here]
      exact ih
    rw [here] at moved
    exact moved

theorem Lexes.single {word : List Char} {kind : Kind} {pos : Nat} (nonempty : word ≠ [])
    (known : (standard skips).classify word = some kind) :
    Lexes skips ⟨word, pos⟩ [⟨kind, String.ofList word, pos⟩] (.ok (pos + byteCount word)) := by
  have longest : Longest (word ++ []) word := by
    rw [List.append_nil]
    exact longest_self nonempty known
  have later : Lexes skips ⟨[], pos + byteCount word⟩ [] (.ok (pos + byteCount word)) :=
    .ended (skip_blanks (nil_blanks skips))
  have cut : Lexes skips ⟨word ++ [], pos⟩ _ _ := .here longest known later
  rw [List.append_nil] at cut
  exact cut

theorem Lexes.loner {c : Char} {back : List Char} {kind : Kind} {pos : Nat} (loner : c ∈ loners)
    (known : (standard skips).classify [c] = some kind)
    (later : Lexes skips ⟨back, pos + byteCount [c]⟩ tokens ending) :
    Lexes skips ⟨c :: back, pos⟩ (⟨kind, String.ofList [c], pos⟩ :: tokens) ending :=
  .here (longest_loner loner (accepted_of_known known)) known later

end Splicing

end Lexer

end Calculator

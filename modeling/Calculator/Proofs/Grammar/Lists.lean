import Calculator.Proofs.Grammar.Derivation
import Calculator.Proofs.Grammar.Recursion

/-!
The parser of items with commas between them against the lists that it is meant to accept.
-/

namespace Calculator

namespace CommaList

variable {α : Type} {item : List Token → α → Prop} {tokens : List Token} {values : List α}

theorem and_reads :
    CommaList (fun tokens value => item tokens value ∧ ∀ token ∈ tokens, token.Reads)
        tokens values ↔
      CommaList item tokens values ∧ ∀ token ∈ tokens, token.Reads := by
  constructor
  · intro list
    have commas : ∀ token : Token, token.kind = .comma → token.Reads :=
      fun _ kind => Token.reads_of_kind (by simp [kind]) (by simp [kind])
    exact ⟨list.mono fun _ _ both => both.1, list.all commas fun _ _ both => both.2⟩
  · rintro ⟨list, reads⟩
    induction list with
    | nil => exact .nil
    | one first => exact .one ⟨first, reads⟩
    | more first separator others nonempty ih =>
      simp only [List.forall_mem_cons, List.forall_mem_append] at reads
      exact .more ⟨first, reads.1⟩ separator (ih reads.2.2) nonempty

end CommaList

namespace Parser

variable {α : Type} {item : Parser α} {relation : List Token → α → Prop} {closing : Kind}

theorem commaItems_sound {stream after : Stream} {values : List α}
    (open_ : closing ≠ .endOfInput) (takes : ∀ stream, Agree 1 stream item item)
    (sound : ∀ later, later.size ≤ stream.size → ∀ value after, item.Yields later value after →
      ∃ tokens, later.Passes tokens after ∧ relation tokens value)
    (yields : (within (commaItems item closing)).Yields stream values after) :
    ∃ tokens last, stream.Passes (tokens ++ [last]) after ∧ CommaList relation tokens values ∧
      last.kind = closing ∧ values ≠ [] := by
  have parts := yields
  rw [commaItems_round open_ takes, yields_commaRound] at parts
  obtain ⟨first, between, started, separated, next, moved, ends⟩ := parts
  obtain ⟨tokens, passed, related⟩ := sound stream (Nat.le_refl _) first between started
  rcases ends with ⟨closes, rfl, rfl⟩ | ⟨other, others, found, rfl⟩
  · exact ⟨tokens, between.current,
      Stream.passes_append.mpr ⟨between, passed, Stream.passes_current moved⟩, .one related, closes,
      List.cons_ne_nil _ _⟩
  · have taken := (takes stream).takes first between started
    have le := Stream.size_advance_le moved
    obtain ⟨rest, last, passed', list, closes, nonempty⟩ :=
      commaItems_sound open_ takes (fun later smaller => sound later (by omega)) found
    refine ⟨tokens ++ between.current :: rest, last, ?_,
      .more related (separated.resolve_right other) list nonempty, closes, List.cons_ne_nil _ _⟩
    rw [List.append_assoc]
    exact Stream.passes_append.mpr ⟨between, passed, .step moved passed'⟩
termination_by stream.size

variable {stream after : Stream} {values : List α}

theorem commaSeparated_sound (open_ : closing ≠ .endOfInput)
    (takes : ∀ stream, Agree 1 stream item item)
    (sound : ∀ later, later.size ≤ stream.size → ∀ value after, item.Yields later value after →
      ∃ tokens, later.Passes tokens after ∧ relation tokens value)
    (yields : (commaSeparated item closing).Yields stream values after) :
    ∃ tokens last, stream.Passes (tokens ++ [last]) after ∧ CommaList relation tokens values ∧
      last.kind = closing := by
  rcases yields_commaSeparated.mp yields with ⟨closes, moved, rfl⟩ | ⟨_, items⟩
  · exact ⟨[], stream.current, Stream.passes_current moved, .nil, closes⟩
  · obtain ⟨tokens, last, passed, list, closes, _⟩ := commaItems_sound open_ takes sound items
    exact ⟨tokens, last, passed, list, closes⟩

theorem commaItems_complete (open_ : closing ≠ .endOfInput) (closing_ : closing ≠ .comma)
    (takes : ∀ stream, Agree 1 stream item item) {tokens : List Token} {last : Token}
    (complete : ∀ stream tokens value after, relation tokens value → stream.Passes tokens after →
      after.current.kind = .comma ∨ after.current.kind = closing → item.Yields stream value after)
    (list : CommaList relation tokens values) (nonempty : values ≠ [])
    (closes : last.kind = closing) (passed : stream.Passes (tokens ++ [last]) after) :
    (within (commaItems item closing)).Yields stream values after := by
  induction list generalizing stream with
  | nil => exact absurd rfl nonempty
  | one first =>
    obtain ⟨between, front, back⟩ := Stream.passes_append.mp passed
    obtain ⟨rfl, next, moved, finished⟩ := Stream.passes_cons.mp back
    obtain rfl := Stream.passes_nil.mp finished
    rw [commaItems_round open_ takes, yields_commaRound]
    exact ⟨_, between, complete stream _ _ between first front (.inr closes), .inr closes, after,
      moved, .inl ⟨closes, rfl, rfl⟩⟩
  | more first separator others more ih =>
    rw [List.append_assoc] at passed
    obtain ⟨between, front, back⟩ := Stream.passes_append.mp passed
    obtain ⟨rfl, next, moved, finished⟩ := Stream.passes_cons.mp back
    rw [commaItems_round open_ takes, yields_commaRound]
    exact ⟨_, between, complete stream _ _ between first front (.inl separator), .inl separator,
      next, moved, .inr ⟨separator ▸ closing_.symm, _, ih more finished, rfl⟩⟩

theorem commaSeparated_complete (open_ : closing ≠ .endOfInput) (closing_ : closing ≠ .comma)
    (takes : ∀ stream, Agree 1 stream item item) {tokens : List Token} {last : Token}
    (begins : ∀ stream value after, item.Yields stream value after → stream.current.kind ≠ closing)
    (complete : ∀ stream tokens value after, relation tokens value → stream.Passes tokens after →
      after.current.kind = .comma ∨ after.current.kind = closing → item.Yields stream value after)
    (list : CommaList relation tokens values) (closes : last.kind = closing)
    (passed : stream.Passes (tokens ++ [last]) after) :
    (commaSeparated item closing).Yields stream values after := by
  by_cases empty : values = []
  · subst empty
    cases list with
    | nil =>
      obtain ⟨rfl, next, moved, finished⟩ := Stream.passes_cons.mp passed
      obtain rfl := Stream.passes_nil.mp finished
      exact yields_commaSeparated.mpr (.inl ⟨closes, moved, rfl⟩)
  · have items := commaItems_complete open_ closing_ takes complete list empty closes passed
    have parts := items
    rw [commaItems_round open_ takes, yields_commaRound] at parts
    obtain ⟨first, between, started, _⟩ := parts
    exact yields_commaSeparated.mpr (.inr ⟨begins stream first between started, items⟩)

end Parser

end Calculator

import Calculator.Proofs.Grammar.Expression
import Calculator.Proofs.Grammar.Forms
import Calculator.Proofs.Grammar.StatementRounds

/-!
Soundness of the parsers of statements. Where one succeeds, the tokens that it has taken form what
it yields, and a condition without an alternative has been left at a token other than `else`.
-/

namespace Calculator

open Calculator.Parser

section Streams

theorem Stream.previous_advance {stream next : Stream} (moved : stream.advance = .ok next) :
    next.previous = some stream.current.kind := by
  obtain ⟨current, ahead, ending, previous⟩ := stream
  cases ahead with
  | cons token ahead =>
    cases moved
    rfl
  | nil =>
    cases ending with
    | ok pos =>
      cases moved
      rfl
    | error error => cases moved

variable {stream after : Stream} {tokens : List Token}

theorem Stream.Passes.previous (passed : stream.Passes tokens after) (nonempty : tokens ≠ []) :
    after.previous = tokens.getLast?.map Token.kind := by
  induction passed with
  | here stream => exact absurd rfl nonempty
  | @step stream next after tokens moved passed ih =>
    cases tokens with
    | nil =>
      obtain rfl := Stream.passes_nil.mp passed
      exact Stream.previous_advance moved
    | cons token tokens =>
      rw [List.getLast?_cons_cons]
      exact ih (List.cons_ne_nil _ _)

theorem Stream.Passes.endsInBrace_iff (passed : stream.Passes tokens after)
    (nonempty : tokens ≠ []) :
    EndsInBrace tokens ↔ after.previous = some .rightBrace := by
  rw [EndsInBrace, passed.previous nonempty]

theorem Stream.Passes.ne_nil (passed : stream.Passes tokens after)
    (smaller : after.size < stream.size) : tokens ≠ [] := by
  rintro rfl
  obtain rfl := Stream.passes_nil.mp passed
  exact Nat.lt_irrefl _ smaller

theorem separators_nil : Separators [] := fun _ member => absurd member List.not_mem_nil

theorem separators_cons {token : Token} :
    Separators (token :: tokens) ↔ token.kind.isSeparator ∧ Separators tokens :=
  List.forall_mem_cons

theorem separators_append {front back : List Token} :
    Separators (front ++ back) ↔ Separators front ∧ Separators back :=
  List.forall_mem_append

theorem skips_sound {stream after : Stream} {done : Unit}
    (yields : (within skipSeparators).Yields stream done after) :
    ∃ gap, stream.Passes gap after ∧ Separators gap := by
  rw [separators_round, yields_separatorsRound] at yields
  rcases yields with ⟨here, next, moved, rest⟩ | ⟨_, rfl⟩
  · have more : stream.current.kind ≠ .endOfInput := by
      intro ended
      simp [ended, Kind.isSeparator] at here
    have smaller := Stream.size_advance_lt moved more
    obtain ⟨gap, passed, separators⟩ := skips_sound rest
    exact ⟨stream.current :: gap, .step moved passed, separators_cons.mpr ⟨here, separators⟩⟩
  · exact ⟨[], .here after, separators_nil⟩
termination_by stream.size

theorem separator_sound {stream after : Stream} {done : Unit}
    (yields : separator.Yields stream done after) :
    ∃ gap, stream.Passes gap after ∧ Separators gap ∧
      (gap ≠ [] ∨ stream.previous = some .rightBrace) := by
  rcases yields_separator.mp yields with ⟨brace, rest⟩ | ⟨_, here, next, moved, rest⟩
  · obtain ⟨gap, passed, separators⟩ := skips_sound rest
    exact ⟨gap, passed, separators, .inr brace⟩
  · obtain ⟨gap, passed, separators⟩ := skips_sound rest
    exact ⟨stream.current :: gap, .step moved passed, separators_cons.mpr ⟨here, separators⟩,
      .inl (List.cons_ne_nil _ _)⟩

end Streams

/-- Where a statement has been parsed, its tokens have been passed, and no `else` is left to a
condition that has none. -/
def StatementSoundAt (stream : Stream) : Prop :=
  ∀ result after, statement.Yields stream result after →
    ∃ tokens, stream.Passes tokens after ∧ StatementForm tokens result ∧
      (result.endsOpen → after.current.kind ≠ .keyword .elseWord)

section Soundness

theorem statements_sound {stream after : Stream} {terminator : Kind} {statements : List Statement}
    (sound : ∀ later, later.size ≤ stream.size → StatementSoundAt later)
    (yields : (within (statementsUntil terminator statement)).Yields stream statements after) :
    ∃ tokens, stream.Passes tokens after ∧ BodyForm tokens statements ∧
      after.current.kind = terminator := by
  rw [statements_round agree_statement, yields_statementsRound] at yields
  rcases yields with ⟨ended, rfl, rfl⟩ | ⟨_, _, first, between, started, ends⟩
  · exact ⟨[], .here after, .nil, ended⟩
  · have taken := (agree_statement stream).takes first between started
    obtain ⟨tokens, passed, form, _⟩ := sound stream (Nat.le_refl _) first between started
    rcases ends with ⟨ended, rfl, rfl⟩ | ⟨_, done, next, gapped, others, rest, rfl⟩
    · refine ⟨tokens ++ ([] ++ []), ?_, .cons form separators_nil (.inl rfl) .nil, ended⟩
      simpa using passed
    · have skipped := (agree_separator between).takes done next gapped
      obtain ⟨gap, passed', separators, apart⟩ := separator_sound gapped
      obtain ⟨tokens', passed'', body, ended⟩ :=
        statements_sound (fun later small => sound later (by omega)) rest
      refine ⟨tokens ++ (gap ++ tokens'), ?_, .cons form separators (.inr ?_) body, ended⟩
      · exact Stream.passes_append.mpr ⟨between, passed,
          Stream.passes_append.mpr ⟨next, passed', passed''⟩⟩
      · exact apart.imp_right fun brace =>
          (passed.endsInBrace_iff (passed.ne_nil (by omega))).mpr brace
termination_by stream.size

theorem list_sound {stream after : Stream} {terminator : Kind} {statements : List Statement}
    (sound : ∀ later, later.size ≤ stream.size → StatementSoundAt later)
    (yields : (statementList terminator statement).Yields stream statements after) :
    ∃ tokens, stream.Passes tokens after ∧ ProgramForm tokens statements ∧
      after.current.kind = terminator := by
  obtain ⟨done, next, skipped, rest⟩ := yields_statementList.mp yields
  have taken := (agree_skipSeparators stream).takes done next skipped
  obtain ⟨gap, passed, separators⟩ := skips_sound skipped
  obtain ⟨tokens, passed', body, ended⟩ :=
    statements_sound (fun later small => sound later (by omega)) rest
  exact ⟨gap ++ tokens, Stream.passes_append.mpr ⟨next, passed, passed'⟩,
    ⟨gap, tokens, rfl, separators, body⟩, ended⟩

variable {stream after : Stream} {result : Statement}

theorem block_sound {body : Block}
    (sound : ∀ later, later.size < stream.size → StatementSoundAt later)
    (yields : block.Yields stream body after) :
    ∃ tokens, stream.Passes tokens after ∧ BlockForm tokens body := by
  obtain ⟨opens, next, moved, statements, between, listed, closes, moved', rfl⟩ :=
    yields_blockWith.mp yields
  have smaller := Stream.size_advance_lt moved (by simp [opens])
  obtain ⟨_, passed, ⟨gap, tokens, rfl, separators, form⟩, _⟩ :=
    list_sound (fun later small => sound later (by omega)) listed
  refine ⟨stream.current :: (gap ++ (tokens ++ [between.current])), .step moved ?_,
    .braces opens separators form closes⟩
  rw [← List.append_assoc]
  exact Stream.passes_append.mpr ⟨between, passed, Stream.passes_current moved'⟩

theorem expression_sound {value : Expr} (yields : expression.Yields stream value after) :
    ∃ tokens, stream.Passes tokens after ∧ Level.comparison.Stands tokens value := by
  obtain ⟨tokens, passed, stands, _⟩ := Level.sound .comparison stream value after yields
  exact ⟨tokens, passed, stands⟩

theorem identifier_sound {name : String} (yields : identifier.Yields stream name after) :
    ∃ tokens, stream.Passes tokens after ∧ Names tokens name := by
  obtain ⟨kind, rfl, moved⟩ := yields_identifier.mp yields
  exact ⟨[stream.current], Stream.passes_current moved, .name kind⟩

theorem declares_of_found {word : Token} {declared : Option NumberType}
    (starts : word.kind = .keyword .setWord ∨ word.kind = .typeWord)
    (found : (word.kind = .typeWord ∧ declared.isSome ∧
        NumberType.ofName? word.text = declared) ∨ (word.kind ≠ .typeWord ∧ declared = none)) :
    Declares word declared := by
  rcases found with ⟨type, present, name⟩ | ⟨other, rfl⟩
  · obtain ⟨type', rfl⟩ := Option.isSome_iff_exists.mp present
    exact .type type name
  · exact .set (starts.resolve_right other)

theorem assignment_sound
    (word : stream.current.kind = .keyword .setWord ∨ stream.current.kind = .typeWord)
    (yields : assignment.Yields stream result after) :
    ∃ tokens, stream.Passes tokens after ∧ StatementForm tokens result ∧
      result.endsOpen = false := by
  obtain ⟨start, moved, declared, declares, named, between, moved', assigns, next, moved'', value,
    valued, rfl⟩ := yields_assignment.mp yields
  have declaration := declares_of_found word declares
  obtain ⟨tokens, passed, stands⟩ := expression_sound valued
  exact ⟨_, .step moved (.step moved' (.step moved'' passed)),
    .assign declaration named assigns stands, rfl⟩

theorem definition_sound
    (sound : ∀ later, later.size < stream.size → StatementSoundAt later)
    (word : stream.current.kind = .keyword .funcWord)
    (yields : (definitionWith statement).Yields stream result after) :
    ∃ tokens, stream.Passes tokens after ∧ StatementForm tokens result ∧
      result.endsOpen = false := by
  obtain ⟨start, moved, named, between, moved', opens, next, moved'', params, last, listed, body,
    braced, rfl⟩ := yields_definitionWith.mp yields
  have smaller := Stream.size_advance_lt moved (by simp [word])
  have le := Stream.size_advance_le moved'
  have le' := Stream.size_advance_le moved''
  obtain ⟨list, closing, passed, list', closes⟩ :=
    commaSeparated_sound (by decide) agree_identifier (fun _ _ _ _ => identifier_sound) listed
  have agree : Agree 1 next (commaSeparated identifier .rightParen)
      (commaSeparated identifier .rightParen) :=
    agree_commaSeparated (by decide) fun later _ => agree_identifier later
  have taken := agree.takes params last listed
  obtain ⟨tokens, passed', form⟩ := block_sound (fun later small => sound later (by omega)) braced
  refine ⟨stream.current :: start.current :: between.current :: (list ++ closing :: tokens), ?_,
    .define word named opens list' closes form, rfl⟩
  refine .step moved (.step moved' (.step moved'' ?_))
  rw [List.append_cons]
  exact Stream.passes_append.mpr ⟨last, passed, passed'⟩

theorem condition_sound
    (sound : ∀ later, later.size < stream.size → StatementSoundAt later)
    (word : stream.current.kind = .keyword .ifWord)
    (yields : (conditionWith statement).Yields stream result after) :
    ∃ tokens, stream.Passes tokens after ∧ StatementForm tokens result ∧
      (result.endsOpen → after.current.kind ≠ .keyword .elseWord) := by
  obtain ⟨start, moved, condition, between, tested, goesOn, next, moved', consequence, last, led,
    ends⟩ := yields_conditionWith.mp yields
  have smaller := Stream.size_advance_lt moved (by simp [word])
  have taken := (agree_expression start).takes condition between tested
  have le := Stream.size_advance_le moved'
  have taken' := (agree_statement next).takes consequence last led
  obtain ⟨tokens, passed, stands⟩ := expression_sound tested
  obtain ⟨rest, passed', form, nearest⟩ := sound next (by omega) consequence last led
  have passed'' : between.Passes (between.current :: rest) last := .step moved' passed'
  rcases ends with ⟨otherwise, other, moved'', alternative, led', rfl⟩ | ⟨stops, rfl, rfl⟩
  · have le' := Stream.size_advance_le moved''
    obtain ⟨final, behind, form', nearest'⟩ := sound other (by omega) alternative after led'
    have closed : consequence.endsOpen = false :=
      Bool.eq_false_iff.mpr fun isOpen => nearest isOpen otherwise
    refine ⟨stream.current :: (tokens ++ between.current :: (rest ++ last.current :: final)), ?_,
      .ifElse word stands goesOn form closed otherwise form', nearest'⟩
    refine .step moved (Stream.passes_append.mpr ⟨between, passed, ?_⟩)
    exact .step moved' (Stream.passes_append.mpr ⟨last, passed', .step moved'' behind⟩)
  · exact ⟨stream.current :: (tokens ++ between.current :: rest),
      .step moved (Stream.passes_append.mpr ⟨between, passed, passed''⟩),
      .ifThen word stands goesOn form, fun _ => stops⟩

end Soundness

theorem statement_sound (stream : Stream) : StatementSoundAt stream := by
  have sound : ∀ later, later.size < stream.size → StatementSoundAt later :=
    fun later _ => statement_sound later
  intro result after yields
  rw [statement_round, yields_statementWith] at yields
  split at yields
  · next word =>
      obtain ⟨tokens, passed, form, closed⟩ := assignment_sound (.inl word) yields
      exact ⟨tokens, passed, form, by simp [closed]⟩
  · next word =>
      obtain ⟨tokens, passed, form, closed⟩ := assignment_sound (.inr word) yields
      exact ⟨tokens, passed, form, by simp [closed]⟩
  · next word => exact condition_sound sound word yields
  · next word =>
      obtain ⟨tokens, passed, form, closed⟩ := definition_sound sound word yields
      exact ⟨tokens, passed, form, by simp [closed]⟩
  · next word =>
      obtain ⟨next, moved, value, valued, rfl⟩ := yields
      obtain ⟨tokens, passed, stands⟩ := expression_sound valued
      exact ⟨_, .step moved passed, .print word stands, by simp [Statement.endsOpen]⟩
  · next word =>
      obtain ⟨moved, rfl⟩ := yields
      exact ⟨_, Stream.passes_current moved, .reset word, by simp [Statement.endsOpen]⟩
  · obtain ⟨body, braced, rfl⟩ := yields
    obtain ⟨tokens, passed, form⟩ := block_sound sound braced
    exact ⟨tokens, passed, .block form, by simp [Statement.endsOpen]⟩
  · obtain ⟨value, valued, rfl⟩ := yields
    obtain ⟨tokens, passed, stands⟩ := expression_sound valued
    exact ⟨tokens, passed, .expression stands, by simp [Statement.endsOpen]⟩
termination_by stream.size

end Calculator

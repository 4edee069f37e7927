import Calculator.Proofs.Grammar.Viability

/-!
Wherever the parser of programs stops, what it has taken is the beginning of a program: half of a
statement can be completed, and open braces can be closed.
-/

namespace Calculator

open Calculator.Parser

/-- The tokens are a statement, and in the same way a block, or statements with or without
separators in front of them. -/
def StatementAccepts (tokens : List Token) : Prop := ∃ result, StatementForm tokens result

def BlockAccepts (tokens : List Token) : Prop := ∃ body, BlockForm tokens body

def BodyAccepts (tokens : List Token) : Prop := ∃ statements, BodyForm tokens statements

def ListAccepts (tokens : List Token) : Prop := ∃ statements, ProgramForm tokens statements

/-- Where the parser of statements fails, its tokens begin a statement. -/
def StatementViableAt (stream : Stream) : Prop :=
  ∀ error after, statement.Fails stream error after → Viable StatementAccepts stream error after

section Completions

theorem completable_statement : Completable StatementAccepts [] := by
  have form : StatementForm [Kind.word (.keyword .resetWord)] (.reset 0) := .reset rfl
  exact .word (Kind.written_word (by decide)) (.now ⟨_, form⟩)

theorem bodyForm_single {tokens : List Token} {statement : Statement}
    (form : StatementForm tokens statement) {gap : List Token} (separators : Separators gap) :
    BodyForm (tokens ++ gap) [statement] := by
  have body := BodyForm.cons form separators (.inl rfl) .nil
  rwa [List.append_nil] at body

theorem listAccepts_nil : ListAccepts [] := ⟨[], [], [], rfl, separators_nil, .nil⟩

theorem blockAccepts_braces {opening closing : Token} {tokens : List Token}
    (opens : opening.kind = .leftBrace) (list : ListAccepts tokens)
    (closes : closing.kind = .rightBrace) : BlockAccepts (opening :: (tokens ++ [closing])) := by
  rcases list with ⟨statements, gap, rest, rfl, separators, body⟩
  rw [List.append_assoc]
  exact ⟨_, .braces opens separators body closes⟩

theorem completable_braces {opening : Token} (opens : opening.kind = .leftBrace)
    (tokens : List Token) (list : ListAccepts tokens) :
    Completable (fun tokens => BlockAccepts (opening :: tokens)) tokens := by
  have brace : Kind.rightBrace.word.Written := Kind.written_word (by decide)
  exact .word brace (.now (blockAccepts_braces opens list rfl))

theorem completable_block : Completable BlockAccepts [] := by
  have brace : Kind.leftBrace.word.Written := Kind.written_word (by decide)
  exact .word brace (completable_braces rfl [] listAccepts_nil)

section Assignments

variable {word name equals : Token} {declared : Option NumberType}

theorem completable_assign (declares : Declares word declared) (named : name.kind = .identifier)
    (assigns : equals.kind = .assign) (tokens : List Token)
    (value : Level.comparison.Accepts tokens) :
    Completable (fun tokens => StatementAccepts (word :: name :: equals :: tokens)) tokens := by
  rcases value with ⟨value, stands⟩
  exact .now ⟨_, .assign declares named assigns stands⟩

theorem completable_name (declares : Declares word declared) (named : name.kind = .identifier) :
    Completable (fun tokens => StatementAccepts (word :: name :: tokens)) [] := by
  have equals : Kind.assign.word.Written := Kind.written_word (by decide)
  exact .word equals ((completable_accepts _).mono (completable_assign declares named rfl))

theorem completable_declares (declares : Declares word declared) :
    Completable (fun tokens => StatementAccepts (word :: tokens)) [] :=
  .word sampleName_written (completable_name declares rfl)

end Assignments

section Conditions

variable {word next other : Token} {tokens rest : List Token} {condition : Expr}
  {consequence : Statement}

theorem completable_ifThen (kind : word.kind = .keyword .ifWord)
    (stands : Level.comparison.Stands tokens condition) (goesOn : next.kind = .keyword .thenWord)
    (rest : List Token) (consequence : StatementAccepts rest) :
    Completable (fun rest => StatementAccepts (word :: (tokens ++ next :: rest))) rest := by
  rcases consequence with ⟨consequence, form⟩
  exact .now ⟨_, .ifThen kind stands goesOn form⟩

theorem completable_if (kind : word.kind = .keyword .ifWord) (tokens : List Token)
    (condition : Level.comparison.Accepts tokens) :
    Completable (fun tokens => StatementAccepts (word :: tokens)) tokens := by
  have goesOn : (Kind.keyword .thenWord).word.Written := Kind.written_word (by decide)
  rcases condition with ⟨condition, stands⟩
  exact .in_front (.word goesOn (completable_statement.mono (completable_ifThen kind stands rfl)))

theorem completable_ifElse (kind : word.kind = .keyword .ifWord)
    (stands : Level.comparison.Stands tokens condition) (goesOn : next.kind = .keyword .thenWord)
    (form : StatementForm rest consequence) (nearest : consequence.endsOpen = false)
    (otherwise : other.kind = .keyword .elseWord) (last : List Token)
    (alternative : StatementAccepts last) :
    Completable (fun last => StatementAccepts (word :: (tokens ++ next :: (rest ++ other :: last))))
      last := by
  rcases alternative with ⟨alternative, form'⟩
  exact .now ⟨_, .ifElse kind stands goesOn form nearest otherwise form'⟩

end Conditions

section Definitions

variable {word name opening : Token} {list : List Token}

theorem completable_define (defines : word.kind = .keyword .funcWord)
    (named : name.kind = .identifier) (opens : opening.kind = .leftParen)
    (params : ClosedList Names .rightParen 0 list) (tokens : List Token)
    (block : BlockAccepts tokens) :
    Completable (fun tokens => StatementAccepts (word :: name :: opening :: (list ++ tokens)))
      tokens := by
  rcases params with ⟨list, closing, params, rfl, names, closes, _⟩
  rcases block with ⟨body, block⟩
  have form := StatementForm.define defines named opens names closes block
  rw [List.append_cons] at form
  exact .now ⟨_, form⟩

theorem completable_params (defines : word.kind = .keyword .funcWord)
    (named : name.kind = .identifier) (opens : opening.kind = .leftParen) (list : List Token)
    (params : ClosedList Names .rightParen 0 list) :
    Completable (fun list => StatementAccepts (word :: name :: opening :: list)) list :=
  .in_front (completable_block.mono (completable_define defines named opens params))

theorem completable_parens (defines : word.kind = .keyword .funcWord)
    (named : name.kind = .identifier) (opens : opening.kind = .leftParen) :
    Completable (fun list => StatementAccepts (word :: name :: opening :: list)) [] := by
  have paren : Kind.rightParen.word.Written := Kind.written_word (by decide)
  exact (completable_closed paren).mono (completable_params defines named opens)

theorem completable_function (defines : word.kind = .keyword .funcWord)
    (named : name.kind = .identifier) :
    Completable (fun tokens => StatementAccepts (word :: name :: tokens)) [] := by
  have paren : Kind.leftParen.word.Written := Kind.written_word (by decide)
  exact .word paren (completable_parens defines named rfl)

end Definitions

end Completions

section Lists

variable {after : Stream} {error : ParseError}

theorem skips_viable {stream : Stream} (fails : (within skipSeparators).Fails stream error after) :
    Viable Separators stream error after := by
  rw [separators_round, separatorsRound, fails_kind_bind] at fails
  split at fails
  · next here =>
    have longer : ∀ gap, Separators gap →
        Completable (fun gap => Separators (stream.current :: gap)) gap :=
      fun gap separators => .now (separators_cons.mpr ⟨here, separators⟩)
    rcases fails_discard_bind.mp fails with stuck | ⟨next, moved, fails⟩
    · exact .stuck stuck fun _ => (Completable.now separators_nil).mono longer
    · have smaller : next.size < stream.size := by
        apply Stream.size_advance_lt moved
        rintro ended
        simp [ended, Kind.isSeparator] at here
      exact .step moved ((skips_viable fails).mono longer)
  · exact absurd fails not_fails_pure
termination_by stream.size

theorem separator_viable {stream : Stream} (fails : separator.Fails stream error after) :
    Viable Separators stream error after := by
  rw [separator, fails_previous_bind] at fails
  split at fails
  · have single : ∀ token : Token, token.kind ∈ [Kind.newline, Kind.semicolon] →
        Separators [token] := by
      intro token listed
      refine separators_cons.mpr ⟨?_, separators_nil⟩
      simpa [Kind.isSeparator_iff] using listed
    rcases fails_bind.mp fails with failed | ⟨_, next, moved, fails⟩
    · have semicolon : Kind.semicolon.word.Written := Kind.written_word (by decide)
      exact .expectOneOf semicolon (by decide) (fails_discard.mp failed)
        fun token listed => .now (single token listed)
    · rcases yields_discard.mp moved with ⟨token, taken⟩
      rcases yields_expectOneOf.mp taken with ⟨listed, rfl, moved⟩
      apply Viable.step moved
      apply (skips_viable fails).mono
      exact fun gap separators => .now (separators_append.mpr ⟨single _ listed, separators⟩)
  · exact skips_viable fails

theorem statements_viable {stream : Stream} {terminator : Kind}
    (viable : ∀ later, later.size ≤ stream.size → StatementViableAt later)
    (fails : (within (statementsUntil terminator statement)).Fails stream error after) :
    Viable BodyAccepts stream error after := by
  rw [statements_round agree_statement, statementsRound, fails_kind_bind] at fails
  split at fails
  · exact absurd fails not_fails_pure
  rw [fails_kind_bind] at fails
  split at fails
  · rcases fails_unexpected.mp fails with ⟨rfl, rfl⟩
    exact .refused ⟨rfl, rfl⟩ (.now ⟨[], .nil⟩)
  rcases fails_bind.mp fails with failed | ⟨first, between, started, fails⟩
  · apply (viable stream (Nat.le_refl _) error after failed).mono
    rintro tokens ⟨first, form⟩
    have body := bodyForm_single form separators_nil
    rw [List.append_nil] at body
    exact .now ⟨_, body⟩
  have taken := (agree_statement stream).takes first between started
  rcases statement_sound stream first between started with ⟨tokens, passed, form, _⟩
  apply Viable.behind passed
  rw [fails_kind_bind] at fails
  split at fails
  · exact absurd fails not_fails_pure
  rcases fails_bind.mp fails with failed | ⟨_, next, gapped, fails⟩
  · apply (separator_viable failed).mono
    exact fun gap separators => .now ⟨_, bodyForm_single form separators⟩
  have skipped := (agree_separator between).takes _ next gapped
  rcases separator_sound gapped with ⟨gap, passed', separators, apart⟩
  have apart : gap ≠ [] ∨ EndsInBrace tokens := apart.imp_right fun brace =>
    (passed.endsInBrace_iff (passed.ne_nil (by omega))).mpr brace
  apply Viable.behind passed'
  apply (statements_viable (fun later small => viable later (by omega))
    (fails_bind_pure.mp fails)).mono
  rintro rest ⟨others, body⟩
  exact .now ⟨_, .cons form separators (.inr apart) body⟩
termination_by stream.size

theorem list_viable {stream : Stream} {terminator : Kind}
    (viable : ∀ later, later.size ≤ stream.size → StatementViableAt later)
    (fails : (statementList terminator statement).Fails stream error after) :
    Viable ListAccepts stream error after := by
  rcases fails_bind.mp fails with failed | ⟨_, next, skipped, fails⟩
  · apply (skips_viable failed).mono
    exact fun gap separators => .now ⟨[], gap, [], (List.append_nil gap).symm, separators, .nil⟩
  have taken := (agree_skipSeparators stream).takes _ next skipped
  rcases skips_sound skipped with ⟨gap, passed, separators⟩
  apply Viable.behind passed
  apply (statements_viable (fun later small => viable later (by omega)) fails).mono
  rintro rest ⟨statements, body⟩
  exact .now ⟨statements, gap, rest, rfl, separators, body⟩

end Lists

section Statements

variable {stream after : Stream} {error : ParseError}

theorem block_viable
    (nested : ∀ later, later.size < stream.size → StatementViableAt later)
    (fails : block.Fails stream error after) : Viable BlockAccepts stream error after := by
  have brace : Kind.leftBrace.word.Written := Kind.written_word (by decide)
  rcases fails_expect_bind.mp fails with failed | ⟨opens, next, moved, fails⟩
  · apply Viable.expect brace rfl failed
    exact fun opening opens => completable_braces opens [] listAccepts_nil
  have smaller := Stream.size_advance_lt moved (by simp [opens])
  apply Viable.step moved
  rcases fails_bind.mp fails with failed | ⟨statements, between, listed, fails⟩
  · exact (list_viable (fun later small => nested later (by omega)) failed).mono
      (completable_braces opens)
  rcases list_sound (fun later _ => statement_sound later) listed with ⟨tokens, passed, form, _⟩
  apply Viable.behind passed
  have brace' : Kind.rightBrace.word.Written := Kind.written_word (by decide)
  apply Viable.expect brace' rfl (fails_discard.mp (fails_bind_pure.mp fails))
  exact fun closing closes => .now (blockAccepts_braces opens ⟨statements, form⟩ closes)

theorem fails_declaration {word : Token} : (declaration word).Fails stream error after ↔
    word.kind = .typeWord ∧ NumberType.ofName? word.text = none ∧
      error = .unexpected (.phrase "'int' or 'float'") word.kind word.pos ∧ after = stream := by
  rw [declaration]
  split
  · next type =>
    split
    · next named => simp [named, not_fails_pure]
    · next unnamed => simp [type, unnamed, fails_fail]
  · next other => simp [other, not_fails_pure]

theorem declares_of_sensible {word : Token}
    (starts : word.kind = .keyword .setWord ∨ word.kind = .typeWord) (sensible : word.Sensible) :
    ∃ declared, Declares word declared := by
  rcases starts with set | type
  · exact ⟨none, .set set⟩
  · rcases Option.isSome_iff_exists.mp (sensible.named type) with ⟨declared, named⟩
    exact ⟨some declared, .type type named⟩

theorem assignment_viable
    (starts : stream.current.kind = .keyword .setWord ∨ stream.current.kind = .typeWord)
    (fails : assignment.Fails stream error after) :
    Viable StatementAccepts stream error after := by
  rcases fails_advance_bind.mp fails with stuck | ⟨start, moved, fails⟩
  · apply Viable.stuck stuck
    intro sensible
    rcases declares_of_sensible starts sensible with ⟨type, declares⟩
    exact completable_declares declares
  rcases fails_bind.mp fails with failed | ⟨type, same, found, ends⟩
  · rcases fails_declaration.mp failed with ⟨type, unnamed, rfl, rfl⟩
    exact .misread moved (.inr ⟨rfl, type, unnamed⟩) completable_statement
  rcases yields_declaration.mp found with ⟨kinds, rfl⟩
  have declares := declares_of_found starts kinds
  apply Viable.step moved
  rcases fails_identifier_bind.mp ends with failed | ⟨name, next, moved', fails⟩
  · exact .expect sampleName_written rfl failed fun _ => completable_name declares
  apply Viable.step moved'
  rcases fails_discard_expect_bind.mp fails with failed | ⟨equals, last, moved'', fails⟩
  · apply Viable.expect (Kind.written_word (by decide)) rfl failed
    exact fun _ assigns =>
      (completable_accepts _).mono (completable_assign declares name assigns)
  apply Viable.step moved''
  have failed := fails_bind_pure.mp fails
  exact (Level.viable .comparison last error after failed).mono
    (completable_assign declares name equals)

theorem condition_viable
    (nested : ∀ later, later.size < stream.size → StatementViableAt later)
    (word : stream.current.kind = .keyword .ifWord)
    (fails : (conditionWith statement).Fails stream error after) :
    Viable StatementAccepts stream error after := by
  rcases fails_advance_bind.mp fails with stuck | ⟨start, moved, fails⟩
  · exact .stuck stuck fun _ => (completable_accepts _).mono (completable_if word)
  have smaller := Stream.size_advance_lt moved (by simp [word])
  apply Viable.step moved
  rcases fails_bind.mp fails with failed | ⟨condition, between, found, fails⟩
  · exact (Level.viable .comparison start error after failed).mono (completable_if word)
  have taken := (agree_expression start).takes condition between found
  rcases expression_sound found with ⟨tokens, passed, stands⟩
  apply Viable.behind passed
  rw [fails_current_bind] at fails
  split at fails
  · next goesOn =>
    have followed := completable_ifThen word stands goesOn
    rcases fails_discard_bind.mp fails with stuck | ⟨next, moved', fails⟩
    · exact .stuck stuck fun _ => completable_statement.mono followed
    have le := Stream.size_advance_le moved'
    apply Viable.step moved'
    rcases fails_bind.mp fails with failed | ⟨consequence, last, led, fails⟩
    · exact (nested next (by omega) error after failed).mono followed
    have taken' := (agree_statement next).takes consequence last led
    rcases statement_sound next consequence last led with ⟨rest, passed', form, nearest⟩
    apply Viable.behind passed'
    rw [fails_kind_bind] at fails
    split at fails
    · next otherwise =>
      have closed : consequence.endsOpen = false :=
        Bool.eq_false_iff.mpr fun isOpen => nearest isOpen otherwise
      have chosen := completable_ifElse word stands goesOn form closed otherwise
      rcases fails_discard_bind.mp fails with stuck | ⟨other, moved'', fails⟩
      · exact .stuck stuck fun _ => completable_statement.mono chosen
      have le' := Stream.size_advance_le moved''
      apply Viable.step moved''
      exact (nested other (by omega) error after (fails_bind_pure.mp fails)).mono chosen
    · exact absurd fails not_fails_pure
  · next other =>
    rcases fails_fail.mp fails with ⟨rfl, rfl⟩
    exact .refused ⟨rfl, rfl⟩ (completable_if word tokens ⟨condition, stands⟩)

theorem identifier_viable (fails : identifier.Fails stream error after) :
    Viable (fun tokens => ∃ name, Names tokens name) stream error after :=
  .expect sampleName_written rfl (fails_identifier.mp fails) fun _ kind => .now ⟨_, .name kind⟩

theorem definition_viable
    (nested : ∀ later, later.size < stream.size → StatementViableAt later)
    (word : stream.current.kind = .keyword .funcWord)
    (fails : (definitionWith statement).Fails stream error after) :
    Viable StatementAccepts stream error after := by
  have paren : Kind.rightParen.word.Written := Kind.written_word (by decide)
  rcases fails_advance_bind.mp fails with stuck | ⟨start, moved, fails⟩
  · exact .stuck stuck fun _ => .word sampleName_written (completable_function word rfl)
  have smaller := Stream.size_advance_lt moved (by simp [word])
  apply Viable.step moved
  rcases fails_identifier_bind.mp fails with failed | ⟨named, between, moved', fails⟩
  · exact .expect sampleName_written rfl failed fun _ => completable_function word
  have le := Stream.size_advance_le moved'
  apply Viable.step moved'
  rcases fails_discard_expect_bind.mp fails with failed | ⟨opens, next, moved'', fails⟩
  · apply Viable.expect (Kind.written_word (by decide)) rfl failed
    exact fun _ => completable_parens word named
  have le' := Stream.size_advance_le moved''
  apply Viable.step moved''
  rcases fails_bind.mp fails with failed | ⟨params, last, found, fails⟩
  · exact (commaSeparated_viable agree_identifier (by decide) paren sampleName_written
      ⟨_, .name rfl⟩ (fun _ _ _ => identifier_sound) (fun _ _ _ _ => identifier_viable)
      failed).mono (completable_params word named opens)
  have agree : Agree 1 next (commaSeparated identifier .rightParen)
      (commaSeparated identifier .rightParen) :=
    agree_commaSeparated (by decide) fun later _ => agree_identifier later
  have taken := agree.takes params last found
  rcases commaSeparated_sound (by decide) agree_identifier (fun _ _ _ _ => identifier_sound)
    found with ⟨list, closing, passed, names, closes⟩
  apply Viable.behind passed
  have failed := fails_bind_pure.mp fails
  exact (block_viable (fun later small => nested later (by omega)) failed).mono
    (completable_define word named opens
      ⟨list, closing, params, rfl, names, closes, Nat.zero_le _⟩)

end Statements

theorem statement_viable (stream : Stream) : StatementViableAt stream := by
  -- Recursion on the tokens that are left: the statements inside this one have fewer.
  have nested : ∀ later, later.size < stream.size → StatementViableAt later :=
    fun later _ => statement_viable later
  have valued : ∀ tokens, Level.comparison.Accepts tokens →
      Completable StatementAccepts tokens := by
    rintro tokens ⟨value, stands⟩
    exact .now ⟨_, .expression stands⟩
  intro error after fails
  rw [statement_round, statementWith, fails_kind_bind] at fails
  split at fails
  · next word => exact assignment_viable (.inl word) fails
  · next word => exact assignment_viable (.inr word) fails
  · next word => exact condition_viable nested word fails
  · next word => exact definition_viable nested word fails
  · next word =>
    have printed : ∀ tokens, Level.comparison.Accepts tokens → Completable
        (fun tokens => StatementAccepts (stream.current :: tokens)) tokens := by
      rintro tokens ⟨value, stands⟩
      exact .now ⟨_, .print word stands⟩
    rcases fails_advance_bind.mp fails with stuck | ⟨next, moved, fails⟩
    · exact .stuck stuck fun _ => (completable_accepts _).mono printed
    apply Viable.step moved
    exact (Level.viable .comparison next error after (fails_bind_pure.mp fails)).mono printed
  · next word =>
    have stuck := fails_advance.mp (fails_bind_pure.mp fails)
    exact .stuck stuck fun _ => .now ⟨_, .reset word⟩
  · apply (block_viable nested (fails_bind_pure.mp fails)).mono
    rintro tokens ⟨body, block⟩
    exact .now ⟨_, .block block⟩
  · exact (Level.viable .comparison stream error after (fails_bind_pure.mp fails)).mono valued
termination_by stream.size

theorem program_viable {stream after : Stream} {error : ParseError}
    (fails : program.Fails stream error after) : Viable ListAccepts stream error after :=
  list_viable (fun later _ => statement_viable later) fails

end Calculator

import Calculator.Proofs.Grammar.Failures
import Calculator.Proofs.Grammar.StatementSoundness
import Calculator.Proofs.Grammar.WrittenForms

/-!
Wherever a parser of expressions stops, what it has taken is the beginning of an expression: a name
and closing parentheses are enough to complete it.
-/

namespace Calculator

open Calculator.Parser

def Level.Accepts (level : Level) (tokens : List Token) : Prop :=
  ∃ tree, level.Stands tokens tree

section Accepts

variable {level : Level} {tokens rest : List Token} {word : Token}

theorem Level.Accepts.loosen {looser : Level} (accepts : level.Accepts tokens)
    (less : looser.tightness ≤ level.tightness) : looser.Accepts tokens := by
  rcases accepts with ⟨tree, derives, reads⟩
  exact ⟨tree, derives.loosen less, reads⟩

def sampleName : Token := nameWord "x"

theorem sampleName_written : sampleName.Written := nameWord_written (by decide)

theorem accepts_name (level : Level) (kind : word.kind = .identifier) : level.Accepts [word] := by
  have name : Level.primary.Accepts [word] :=
    ⟨_, .name kind, reads_word (by simp [kind]) (by simp [kind])⟩
  exact name.loosen (by cases level <;> decide)

theorem accepts_number (kind : word.kind = .number) (reads : word.Reads) :
    Level.primary.Accepts [word] :=
  ⟨_, .number kind, by simpa using reads⟩

theorem accepts_decimal (kind : word.kind = .decimal) (reads : word.Reads) :
    Level.primary.Accepts [word] :=
  ⟨_, .decimal kind, by simpa using reads⟩

theorem accepts_parens {opening closing : Token} (opens : opening.kind = .leftParen)
    (inner : Level.comparison.Accepts tokens) (closes : closing.kind = .rightParen) :
    Level.primary.Accepts (opening :: (tokens ++ [closing])) := by
  rcases inner with ⟨tree, derives, reads⟩
  refine ⟨tree, .parens opens derives closes, ?_⟩
  simp only [List.forall_mem_cons, List.forall_mem_append]
  exact ⟨Token.reads_of_kind (by simp [opens]) (by simp [opens]), reads,
    Token.reads_of_kind (by simp [closes]) (by simp [closes]), by simp⟩

theorem accepts_negate (minus : word.kind = .operator .sub) (inner : Level.unary.Accepts tokens) :
    Level.unary.Accepts (word :: tokens) := by
  rcases inner with ⟨tree, derives, reads⟩
  exact ⟨_, .negate minus derives,
    List.forall_mem_cons.mpr ⟨Token.reads_of_kind (by simp [minus]) (by simp [minus]), reads⟩⟩

theorem accepts_power (left : Level.unary.Accepts tokens) (operator : word.kind = .operator .pow)
    (right : Level.power.Accepts rest) : Level.power.Accepts (tokens ++ word :: rest) := by
  rcases left with ⟨base, derives, reads⟩
  rcases right with ⟨exponent, derives', reads'⟩
  refine ⟨_, .power derives operator derives', ?_⟩
  simp only [List.forall_mem_append, List.forall_mem_cons]
  exact ⟨reads, Token.reads_of_kind (by simp [operator]) (by simp [operator]), reads'⟩

theorem accepts_fold {first : Expr} {links : List Link} (folds : level.Folds)
    (operand : level.tighter.Stands tokens first) (others : Linked Level.Stands level rest links)
    (nonempty : links ≠ []) : level.Accepts (tokens ++ rest) := by
  rcases others.stands with ⟨linked, reads⟩
  exact ⟨_, .fold folds operand.1 linked nonempty, List.forall_mem_append.mpr ⟨operand.2, reads⟩⟩

theorem accepts_call {name : String} {pos : Nat} {list : List Token} {arguments : List Expr}
    {opening closing : Token} (callee : Level.primary.Stands tokens (.name name pos))
    (opens : opening.kind = .leftParen)
    (items : CommaList Level.comparison.Stands list arguments)
    (closes : closing.kind = .rightParen) :
    Level.call.Accepts (tokens ++ opening :: (list ++ [closing])) := by
  rcases callee.1.name_enclosed with ⟨word, enclosed, _, _⟩
  rcases CommaList.and_reads.mp items with ⟨inner, reads⟩
  refine ⟨_, .call enclosed opens inner closes, ?_⟩
  simp only [List.forall_mem_append, List.forall_mem_cons]
  exact ⟨callee.2, Token.reads_of_kind (by simp [opens]) (by simp [opens]), reads,
    Token.reads_of_kind (by simp [closes]) (by simp [closes]), by simp⟩

end Accepts

section Lists

variable {α : Type} {item : Parser α} {relation : List Token → α → Prop} {closing : Kind}

/-- Items with commas between them and the token that closes the list; at least as many as are
asked for. -/
def ClosedList (relation : List Token → α → Prop) (closing : Kind) (least : Nat)
    (tokens : List Token) : Prop :=
  ∃ list last values, tokens = list ++ [last] ∧ CommaList relation list values ∧
    last.kind = closing ∧ least ≤ values.length

def ItemsViable (item : Parser α) (relation : List Token → α → Prop) (stream : Stream) : Prop :=
  ∀ later : Stream, later.size ≤ stream.size → ∀ error after, item.Fails later error after →
    Viable (fun tokens => ∃ value, relation tokens value) later error after

theorem completable_closed (closes : closing.word.Written) :
    Completable (ClosedList relation closing 0) [] :=
  .word closes (.now ⟨[], _, [], rfl, .nil, rfl, Nat.le_refl _⟩)

theorem closedList_more {comma : Token} {tokens rest : List Token} {value : α}
    (first : relation tokens value) (separator : comma.kind = .comma)
    (others : ClosedList relation closing 1 rest) :
    ClosedList relation closing 1 (tokens ++ comma :: rest) := by
  rcases others with ⟨list, last, values, rfl, items, closes, nonempty⟩
  refine ⟨tokens ++ comma :: list, last, value :: values, by simp, ?_, closes, by simp⟩
  exact .more first separator items (List.length_pos_iff.mp nonempty)

section Items

variable (takes : ∀ stream, Agree 1 stream item item) (open_ : closing ≠ .endOfInput)
  (closes : closing.word.Written) {sample : Token} (written : sample.Written)
  (related : ∃ value, relation [sample] value)
  (sound : ∀ later value after, item.Yields later value after →
    ∃ tokens, later.Passes tokens after ∧ relation tokens value)

include takes open_ closes written related sound

theorem commaItems_viable {stream after : Stream} {error : ParseError}
    (viable : ItemsViable item relation stream)
    (fails : (within (commaItems item closing)).Fails stream error after) :
    Viable (ClosedList relation closing 1) stream error after := by
  have one : ∀ tokens value, relation tokens value → ∀ last : Token, last.kind = closing →
      ClosedList relation closing 1 (tokens ++ [last]) := fun tokens value first last closes =>
    ⟨tokens, last, [value], rfl, .one first, closes, Nat.le_refl _⟩
  have single : Completable (ClosedList relation closing 1) [] := by
    rcases related with ⟨value, related⟩
    exact .word written (.word closes (.now (one [sample] value related closing.word rfl)))
  rw [commaItems_round open_ takes, commaRound] at fails
  rcases fails_bind.mp fails with failed | ⟨first, between, started, fails⟩
  · apply (viable stream (Nat.le_refl _) error after failed).mono
    rintro tokens ⟨value, related⟩
    exact .word closes (.now (one tokens value related closing.word rfl))
  have taken := (takes stream).takes first between started
  rcases sound stream first between started with ⟨tokens, passed, related'⟩
  apply Viable.behind passed
  rcases fails_bind.mp fails with failed | ⟨separator, next, separated, fails⟩
  · apply Viable.expectOneOf closes (by simp [Kind.word]) failed
    intro token listed
    by_cases last : token.kind = closing
    · exact .now (one tokens first related' token last)
    · have comma : token.kind = .comma := by simpa [last] using listed
      have more : ∀ rest, ClosedList relation closing 1 rest → Completable
          (fun rest => ClosedList relation closing 1 (tokens ++ token :: rest)) rest :=
        fun rest others => .now (closedList_more related' comma others)
      exact single.mono more
  · rcases yields_expectOneOf.mp separated with ⟨listed, rfl, moved⟩
    have le := Stream.size_advance_le moved
    split at fails
    · exact absurd fails not_fails_pure
    · next other =>
      have comma : between.current.kind = .comma := by simpa [other] using listed
      apply Viable.step moved
      apply (commaItems_viable (fun later small => viable later (by omega))
        (fails_bind_pure.mp fails)).mono
      intro rest others
      exact .now (closedList_more related' comma others)
termination_by stream.size

theorem commaSeparated_viable {stream after : Stream} {error : ParseError}
    (viable : ItemsViable item relation stream)
    (fails : (commaSeparated item closing).Fails stream error after) :
    Viable (ClosedList relation closing 0) stream error after := by
  rw [commaSeparated, fails_kind_bind] at fails
  split at fails
  · next here =>
    have stuck := fails_advance.mp (fails_discard.mp (fails_bind_pure.mp fails))
    exact .stuck stuck fun _ => .now ⟨[], _, [], rfl, .nil, here, Nat.le_refl _⟩
  · apply (commaItems_viable takes open_ closes written related sound viable fails).mono
    rintro tokens ⟨list, last, values, rfl, items, closes, _⟩
    exact .now ⟨list, last, values, rfl, items, closes, Nat.zero_le _⟩

end Items

end Lists

/-- Where the parser of a level fails, its tokens begin an expression of the level. -/
def Level.ViableAt (level : Level) (stream : Stream) : Prop :=
  ∀ error after, level.parser.Fails stream error after → Viable level.Accepts stream error after

section Expressions

variable {stream after : Stream} {error : ParseError} {level : Level}

theorem completable_accepts (level : Level) : Completable level.Accepts [] :=
  .word sampleName_written (.now (accepts_name level rfl))

theorem literal_viable {read : List Char → Option Scalar}
    (accepts : stream.current.Reads → Level.primary.Accepts [stream.current])
    (fails : (literal read).Fails stream error after) :
    Viable Level.primary.Accepts stream error after := by
  rw [literal, fails_advance_bind] at fails
  rcases fails with stuck | ⟨next, moved, fails⟩
  · exact .stuck stuck fun sensible => .now (accepts sensible.reads)
  · split at fails
    · exact absurd fails not_fails_pure
    · rcases fails_fail.mp fails with ⟨rfl, rfl⟩
      exact .misread moved (.inl rfl) (completable_accepts _)

theorem primary_viable
    (nested : ∀ later, later.size < stream.size → Level.comparison.ViableAt later) :
    Level.primary.ViableAt stream := by
  intro error after fails
  change Parser.primary.Fails stream error after at fails
  rw [primary_eq, primaryWith, fails_kind_bind] at fails
  split at fails
  · next kind => exact literal_viable (accepts_number kind) fails
  · next kind => exact literal_viable (accepts_decimal kind) fails
  · next kind =>
    have stuck := fails_advance.mp (fails_bind_pure.mp fails)
    exact .stuck stuck fun _ => .now (accepts_name _ kind)
  · next opens =>
    have paren : Kind.rightParen.word.Written := Kind.written_word (by decide)
    have closed : ∀ tokens, Level.comparison.Accepts tokens → Completable
        (fun tokens => Level.primary.Accepts (stream.current :: tokens)) tokens :=
      fun tokens inner => .word paren (.now (accepts_parens opens inner rfl))
    rcases fails_discard_bind.mp fails with stuck | ⟨next, moved, fails⟩
    · exact .stuck stuck fun _ => (completable_accepts .comparison).mono closed
    have smaller := Stream.size_advance_lt moved (by simp [opens])
    apply Viable.step moved
    rcases fails_bind.mp fails with failed | ⟨inner, between, found, fails⟩
    · exact (nested next smaller error after failed).mono closed
    rcases Level.sound .comparison next inner between found with ⟨tokens, passed, stands, _⟩
    apply Viable.behind passed
    apply Viable.expect paren rfl (fails_discard.mp (fails_bind_pure.mp fails))
    exact fun closing closes => .now (accepts_parens opens ⟨inner, stands⟩ closes)
  · rcases fails_unexpected.mp fails with ⟨rfl, rfl⟩
    exact .refused ⟨rfl, rfl⟩ (completable_accepts _)

theorem notCallable_viable {form : List Token → Prop} (opens : stream.current.kind = .leftParen)
    (fails : notCallable.Fails stream error after) (whole : form []) :
    Viable form stream error after := by
  rcases fails with ⟨⟩
  exact .refused ⟨opens, rfl⟩ (.now whole)

theorem call_viable
    (nested : ∀ later, later.size < stream.size → Level.comparison.ViableAt later) :
    Level.call.ViableAt stream := by
  intro error after fails
  change Parser.call.Fails stream error after at fails
  rw [call_eq, callWith, ← primary_eq] at fails
  rcases fails_bind.mp fails with failed | ⟨target, between, started, fails⟩
  · apply (primary_viable nested error after failed).mono
    exact fun tokens inner => .now (inner.loosen (by decide))
  have taken := (Level.takes .primary stream).takes _ _ started
  rcases Level.sound .primary stream target between started with ⟨front, passed, callee, _⟩
  have alone : Level.call.Accepts (front ++ []) := by
    rw [List.append_nil]
    exact Level.Accepts.loosen ⟨target, callee⟩ (by decide)
  apply Viable.behind passed
  rw [fails_kind_bind] at fails
  split at fails
  · next opens =>
    cases target with
    | name name pos =>
      have paren : Kind.rightParen.word.Written := Kind.written_word (by decide)
      have closed : ∀ tokens, ClosedList Level.comparison.Stands .rightParen 0 tokens →
          Level.call.Accepts (front ++ between.current :: tokens) := by
        rintro tokens ⟨list, closing, arguments, rfl, items, closes, _⟩
        exact accepts_call callee opens items closes
      have completed : ∀ tokens, ClosedList Level.comparison.Stands .rightParen 0 tokens →
          Completable (fun tokens => Level.call.Accepts (front ++ between.current :: tokens))
            tokens :=
        fun tokens list => .now (closed tokens list)
      rcases fails_discard_bind.mp fails with stuck | ⟨next, moved, fails⟩
      · exact .stuck stuck fun _ => (completable_closed paren).mono completed
      have le := Stream.size_advance_le moved
      apply Viable.step moved
      rcases fails_bind.mp fails with failed | ⟨arguments, last, listed, fails⟩
      · have items : ItemsViable expression Level.comparison.Stands next :=
          fun later small => nested later (by omega)
        exact (commaSeparated_viable agree_expression (by decide) paren sampleName_written
          (accepts_name .comparison rfl) (fun _ _ _ => expression_sound) items failed).mono completed
      rcases commaSeparated_sound (by decide) agree_expression
        (fun _ _ _ _ => expression_sound) listed with ⟨list, closing, passed', items, closes⟩
      apply Viable.behind passed'
      rw [fails_kind_bind] at fails
      split at fails
      · next again =>
        apply notCallable_viable again fails
        rw [List.append_nil]
        exact accepts_call callee opens items closes
      · exact absurd fails not_fails_pure
    | _ => exact notCallable_viable opens fails alone
  · exact absurd fails not_fails_pure

theorem unary_viable {stream : Stream}
    (nested : ∀ later, later.size < stream.size → Level.comparison.ViableAt later) :
    Level.unary.ViableAt stream := by
  intro error after fails
  change Parser.unary.Fails stream error after at fails
  rw [unary_round, negationsRound, fails_kind_bind] at fails
  split at fails
  · next minus =>
    have negated : ∀ tokens, Level.unary.Accepts tokens → Completable
        (fun tokens => Level.unary.Accepts (stream.current :: tokens)) tokens :=
      fun tokens inner => .now (accepts_negate minus inner)
    rcases fails_advance_bind.mp fails with stuck | ⟨next, moved, fails⟩
    · exact .stuck stuck fun _ => (completable_accepts .unary).mono negated
    have smaller := Stream.size_advance_lt moved (by simp [minus])
    apply Viable.step moved
    have viable : Level.unary.ViableAt next :=
      unary_viable fun later smaller' => nested later (by omega)
    exact (viable error after (fails_bind_pure.mp fails)).mono negated
  · apply (call_viable nested error after fails).mono
    exact fun tokens inner => .now (inner.loosen (by decide))
termination_by stream.size

theorem power_viable {stream : Stream}
    (nested : ∀ later, later.size < stream.size → Level.comparison.ViableAt later) :
    Level.power.ViableAt stream := by
  intro error after fails
  change Parser.power.Fails stream error after at fails
  rw [power_round, powersRound] at fails
  rcases fails_bind.mp fails with failed | ⟨first, between, started, fails⟩
  · apply (unary_viable nested error after failed).mono
    exact fun tokens inner => .now (inner.loosen (by decide))
  have taken := (agree_unary stream).takes first between started
  rcases Level.sound .unary stream first between started with ⟨front, passed, base, _⟩
  apply Viable.behind passed
  rw [fails_kind_bind] at fails
  split at fails
  · next operator =>
    have raised : ∀ tokens, Level.power.Accepts tokens → Completable
        (fun tokens => Level.power.Accepts (front ++ between.current :: tokens)) tokens :=
      fun tokens inner => .now (accepts_power ⟨first, base⟩ operator inner)
    rcases fails_advance_bind.mp fails with stuck | ⟨next, moved, fails⟩
    · exact .stuck stuck fun _ => (completable_accepts .power).mono raised
    have le := Stream.size_advance_le moved
    apply Viable.step moved
    have viable : Level.power.ViableAt next :=
      power_viable fun later smaller => nested later (by omega)
    exact (viable error after (fails_bind_pure.mp fails)).mono raised
  · exact absurd fails not_fails_pure
termination_by stream.size

def LinksForm (level : Level) (tokens : List Token) : Prop :=
  ∃ links, Linked Level.Stands level tokens links ∧ links ≠ []

theorem links_viable {operators : List BinaryOp} {stream : Stream}
    (members : ∀ op, op ∈ operators ↔ op.level = level)
    (operand : ∀ later, later.size < stream.size → level.tighter.ViableAt later)
    (fails : (within (links operators level.tighter.parser)).Fails stream error after) :
    Viable (LinksForm level) stream error after := by
  rw [links_round operators (Level.takes _), linksRound] at fails
  rcases fails_bind.mp fails with ⟨⟨⟩⟩ | ⟨chosen, here, found, fails⟩
  obtain ⟨rfl, rfl⟩ : chosen = stream.current.kind.operator?.filter (· ∈ operators) ∧
      here = stream := by
    cases found
    exact ⟨rfl, rfl⟩
  split at fails
  · next op chosen =>
    rcases Option.filter_eq_some_iff.mp chosen with ⟨operator, member⟩
    have operator : here.current.kind = .operator op := Kind.operator?_eq_some.mp operator
    have own : op.level = level := (members op).mp (of_decide_eq_true member)
    have one : ∀ tokens, level.tighter.Accepts tokens → Completable
        (fun tokens => LinksForm level (here.current :: tokens)) tokens := by
      rintro tokens ⟨right, stands⟩
      have linked := Linked.cons operator own stands .nil
      rw [List.append_nil] at linked
      exact .now ⟨_, linked, List.cons_ne_nil _ _⟩
    rcases fails_advance_bind.mp fails with stuck | ⟨next, moved, fails⟩
    · exact .stuck stuck fun _ => (completable_accepts _).mono one
    have smaller := Stream.size_advance_lt moved (by simp [operator])
    apply Viable.step moved
    rcases fails_bind.mp fails with failed | ⟨right, between, found, fails⟩
    · exact (operand next smaller error after failed).mono one
    have taken := (Level.takes _ next).takes right between found
    rcases Level.sound _ next right between found with ⟨tokens, passed, stands, _⟩
    apply Viable.behind passed
    apply (links_viable members (fun later small => operand later (by omega))
      (fails_bind_pure.mp fails)).mono
    rintro rest ⟨links, linked, _⟩
    subst own
    exact .now ⟨_, .cons operator rfl stands linked, List.cons_ne_nil _ _⟩
  · exact absurd fails not_fails_pure
termination_by stream.size

theorem fold_viable (folds : level.Folds)
    (operand : ∀ later, later.size ≤ stream.size → level.tighter.ViableAt later) :
    level.ViableAt stream := by
  intro error after fails
  rcases Level.parser_eq_chain folds with ⟨operators, parser, members⟩
  rw [parser, chain] at fails
  rcases fails_bind.mp fails with failed | ⟨first, between, started, fails⟩
  · apply (operand stream (Nat.le_refl _) error after failed).mono
    rintro tokens ⟨tree, derives, reads⟩
    exact .now ⟨tree, .tighter folds.proper derives, reads⟩
  have taken := (Level.takes _ stream).takes first between started
  rcases Level.sound _ stream first between started with ⟨front, passed, stands, _⟩
  apply Viable.behind passed
  apply (links_viable members (fun later small => operand later (by omega))
    (fails_bind_pure.mp fails)).mono
  rintro rest ⟨links, linked, nonempty⟩
  exact .now (accepts_fold folds stands linked nonempty)

end Expressions

theorem Level.viable (level : Level) (stream : Stream) : level.ViableAt stream := by
  -- Recursion on the tokens that are left, and for these tokens from the tightest level down.
  have nested : ∀ later : Stream, later.size ≤ stream.size →
      ∀ last : Stream, last.size < later.size → comparison.ViableAt last :=
    fun later _ last _ => Level.viable comparison last
  apply level.climb (motive := fun level =>
    ∀ later : Stream, later.size ≤ stream.size → level.ViableAt later) _ _ stream (Nat.le_refl _)
  · exact fun later small => primary_viable (nested later small)
  · intro level proper inner later small
    by_cases folds : level.Folds
    · exact fold_viable folds fun last le => inner last (by omega)
    · cases level with
      | power => exact power_viable (nested later small)
      | unary => exact unary_viable (nested later small)
      | call => exact call_viable (nested later small)
      | primary => exact absurd rfl proper
      | _ => exact absurd (by decide) folds
termination_by stream.size

end Calculator

import Calculator.Proofs.Grammar.Levels
import Calculator.Proofs.Grammar.StatementRounds

/-!
Parsers as sequences of steps. At every stream each parser of the language comes to its end after
finitely many steps, of which each reads what is there or takes a token other than the end token.
What holds of all sequences of such steps holds of the parsers.
-/

namespace Calculator

open Calculator.Parser

namespace Parser

variable {α β : Type} {stream : Stream}

/-- The steps that a parser goes through at a stream: it reads what is there, takes a token that is
not the end token, or goes on with another parser after it has succeeded. -/
inductive Stepwise : {α : Type} → Parser α → Stream → Prop
  | pure {α : Type} (value : α) (stream : Stream) : Stepwise (pure value) stream
  | fail {α : Type} (error : ParseError) (stream : Stream) :
      Stepwise (fail error : Parser α) stream
  | current (stream : Stream) : Stepwise current stream
  | previous (stream : Stream) : Stepwise previous stream
  | advance {stream : Stream} (more : stream.current.kind ≠ .endOfInput) : Stepwise advance stream
  | bind {α β : Type} {parser : Parser α} {next : α → Parser β} {stream : Stream}
      (first : Stepwise parser stream)
      (rest : ∀ value between, parser.Yields stream value between →
        Stepwise (next value) between) : Stepwise (parser >>= next) stream

section Combinators

theorem stepwise_current {next : Token → Parser α}
    (stepwise : Stepwise (next stream.current) stream) : Stepwise (current >>= next) stream := by
  apply Stepwise.bind (.current stream)
  rintro _ _ ⟨⟩
  exact stepwise

theorem stepwise_previous {next : Option Kind → Parser α}
    (stepwise : Stepwise (next stream.previous) stream) : Stepwise (previous >>= next) stream := by
  apply Stepwise.bind (.previous stream)
  rintro _ _ ⟨⟩
  exact stepwise

theorem stepwise_kind {next : Kind → Parser α}
    (stepwise : Stepwise (next stream.current.kind) stream) : Stepwise (kind >>= next) stream := by
  have reads : Stepwise (current >>= fun token => (Pure.pure token.kind : Parser Kind)) stream :=
    stepwise_current (.pure _ stream)
  have found : Stepwise kind stream := reads
  apply found.bind
  rintro _ _ ⟨⟩
  exact stepwise

theorem stepwise_unexpected (expected : Expected) (stream : Stream) :
    Stepwise (unexpected expected : Parser α) stream := by
  have fails : Stepwise (current >>= fun token =>
      (Parser.fail (.unexpected expected token.kind token.pos) : Parser α)) stream :=
    stepwise_current (.fail _ stream)
  exact fails

theorem stepwise_discard {parser : Parser α} (stepwise : Stepwise parser stream) :
    Stepwise (discard parser) stream :=
  stepwise.bind fun _ between _ => .pure () between

theorem stepwise_expectOneOf {kinds : List Kind} (more : .endOfInput ∉ kinds) (stream : Stream) :
    Stepwise (expectOneOf kinds) stream := by
  apply stepwise_kind
  split
  · next wanted =>
    apply Stepwise.advance
    intro ended
    exact more (ended ▸ wanted)
  · exact stepwise_unexpected _ stream

theorem stepwise_identifier (stream : Stream) : Stepwise identifier stream :=
  (stepwise_expectOneOf (by decide) stream).bind fun token between _ => .pure token.text between

theorem stepwise_advance_bind {next : Token → Parser α} (more : stream.current.kind ≠ .endOfInput)
    (rest : ∀ after, after.size < stream.size → Stepwise (next stream.current) after) :
    Stepwise (advance >>= next) stream := by
  apply (Stepwise.advance more).bind
  intro token after passed
  rcases yields_advance.mp passed with ⟨rfl, moved⟩
  exact rest after (Stream.size_advance_lt moved more)

theorem stepwise_discard_bind {next : Unit → Parser α} (more : stream.current.kind ≠ .endOfInput)
    (rest : ∀ after, after.size < stream.size → Stepwise (next ()) after) :
    Stepwise (discard advance >>= next) stream := by
  apply (stepwise_discard (.advance more)).bind
  intro _ after moved
  rcases yields_discard.mp moved with ⟨token, moved⟩
  exact rest after (Stream.size_advance_lt (yields_advance.mp moved).2 more)

theorem stepwise_takes {least : Nat} {parser : Parser α} {next : α → Parser β}
    (takes : Agree least stream parser parser) (first : Stepwise parser stream)
    (rest : ∀ value after, after.size + least ≤ stream.size → Stepwise (next value) after) :
    Stepwise (parser >>= next) stream :=
  first.bind fun value after ends => rest value after (takes.takes value after ends)

end Combinators

section Lists

variable {item : Parser α} {closing : Kind}

theorem stepwise_commaItems {stream : Stream} (open_ : closing ≠ .endOfInput)
    (takes : ∀ stream, Agree 1 stream item item)
    (items : ∀ later, later.size ≤ stream.size → Stepwise item later) :
    Stepwise (within (commaItems item closing)) stream := by
  rw [commaItems_round open_ takes]
  apply stepwise_takes (takes stream) (items stream (Nat.le_refl _))
  intro first between taken
  have more : .endOfInput ∉ [Kind.comma, closing] := by simp [open_.symm]
  apply stepwise_takes (agree_expectOneOf more between) (stepwise_expectOneOf more between)
  intro separator next taken'
  split
  · exact .pure _ next
  · apply Stepwise.bind (stepwise_commaItems open_ takes fun later small => items later (by omega))
    intro others last _
    exact .pure _ last
termination_by stream.size

theorem stepwise_commaSeparated (open_ : closing ≠ .endOfInput)
    (takes : ∀ stream, Agree 1 stream item item)
    (items : ∀ later, later.size ≤ stream.size → Stepwise item later) :
    Stepwise (commaSeparated item closing) stream := by
  apply stepwise_kind
  split
  · next closed =>
    apply stepwise_discard_bind (closed ▸ open_)
    intro after _
    exact .pure _ after
  · exact stepwise_commaItems open_ takes items

end Lists

section Expressions

variable {operand nested : Parser Expr}

theorem stepwise_operatorOf {operators : List BinaryOp} {next : Option BinaryOp → Parser α}
    (found : ∀ op, stream.current.kind = .operator op → Stepwise (next (some op)) stream)
    (absent : Stepwise (next none) stream) : Stepwise (operatorOf operators >>= next) stream := by
  have reads : Stepwise (operatorOf operators) stream := stepwise_kind (.pure _ stream)
  apply reads.bind
  rintro chosen between ⟨⟩
  cases chosen : stream.current.kind.operator?.filter (· ∈ operators) with
  | none => exact absent
  | some op =>
    have here := (Option.filter_eq_some_iff.mp chosen).1
    exact found op (Kind.operator?_eq_some.mp here)

theorem stepwise_links {stream : Stream} (operators : List BinaryOp)
    (takes : ∀ stream, Agree 1 stream operand operand)
    (operands : ∀ later, later.size < stream.size → Stepwise operand later) :
    Stepwise (within (links operators operand)) stream := by
  rw [links_round operators takes]
  apply stepwise_operatorOf _ (.pure [] stream)
  intro op here
  apply stepwise_advance_bind (by simp [here])
  intro next smaller
  apply stepwise_takes (takes next) (operands next smaller)
  intro right between taken
  apply Stepwise.bind (stepwise_links operators takes fun later small => operands later (by omega))
  intro more last _
  exact .pure _ last
termination_by stream.size

theorem stepwise_literal (read : List Char → Option Scalar)
    (more : stream.current.kind ≠ .endOfInput) : Stepwise (literal read) stream := by
  apply stepwise_advance_bind more
  intro after _
  cases read stream.current.text.toList with
  | none => exact .fail _ after
  | some value => exact .pure _ after

theorem stepwise_primaryWith
    (stepwise : ∀ later, later.size < stream.size → Stepwise nested later) :
    Stepwise (primaryWith nested) stream := by
  apply stepwise_kind
  cases here : stream.current.kind with
  | number => exact stepwise_literal _ (by simp [here])
  | decimal => exact stepwise_literal _ (by simp [here])
  | identifier =>
    apply stepwise_advance_bind (by simp [here])
    intro after _
    exact .pure _ after
  | leftParen =>
    apply stepwise_discard_bind (by simp [here])
    intro next smaller
    apply Stepwise.bind (stepwise next smaller)
    intro inner between _
    apply Stepwise.bind (stepwise_discard (stepwise_expectOneOf (by decide) between))
    intro _ after _
    exact .pure inner after
  | _ => exact stepwise_unexpected _ stream

theorem stepwise_notCallable (stream : Stream) : Stepwise notCallable stream :=
  stepwise_current (.fail _ stream)

theorem stepwise_callWith (takes : ∀ stream, Agree 1 stream nested nested)
    (stepwise : ∀ later, later.size < stream.size → Stepwise nested later) :
    Stepwise (callWith nested) stream := by
  have taken : Agree 1 stream (primaryWith nested) (primaryWith nested) :=
    agree_primaryWith fun later _ => takes later
  apply stepwise_takes taken (stepwise_primaryWith stepwise)
  intro target between fewer
  apply stepwise_kind
  split
  · next here =>
    cases target with
    | name name pos =>
      apply stepwise_discard_bind (by simp [here])
      intro next smaller
      apply Stepwise.bind (stepwise_commaSeparated (by decide) takes fun later small =>
        stepwise later (by omega))
      intro arguments after _
      apply stepwise_kind
      split
      · exact stepwise_notCallable after
      · exact .pure _ after
    | _ => exact stepwise_notCallable between
  · exact .pure target between

/-- What holds of the parser of whole expressions on all shorter streams. -/
def StepwiseBelow (stream : Stream) : Prop :=
  ∀ later : Stream, later.size < stream.size → Stepwise expression later

theorem StepwiseBelow.mono {later : Stream} (stepwise : StepwiseBelow stream)
    (small : later.size ≤ stream.size) : StepwiseBelow later :=
  fun last smaller => stepwise last (Nat.lt_of_lt_of_le smaller small)

theorem stepwise_call (stepwise : StepwiseBelow stream) : Stepwise call stream := by
  rw [call_eq]
  exact stepwise_callWith agree_expression stepwise

theorem stepwise_unary {stream : Stream} (stepwise : StepwiseBelow stream) :
    Stepwise unary stream := by
  rw [unary_round]
  apply stepwise_kind
  split
  · next here =>
    apply stepwise_advance_bind (by simp [here])
    intro next smaller
    apply Stepwise.bind (stepwise_unary (stepwise.mono (Nat.le_of_lt smaller)))
    intro inner after _
    exact .pure _ after
  · exact stepwise_call stepwise
termination_by stream.size

theorem stepwise_power {stream : Stream} (stepwise : StepwiseBelow stream) :
    Stepwise power stream := by
  rw [power_round]
  apply stepwise_takes (agree_unary stream) (stepwise_unary stepwise)
  intro first between taken
  apply stepwise_kind
  split
  · next here =>
    apply stepwise_advance_bind (by simp [here])
    intro next smaller
    apply Stepwise.bind (stepwise_power (stepwise.mono (by omega)))
    intro exponent after _
    exact .pure _ after
  · exact .pure first between
termination_by stream.size

theorem stepwise_fold {level : Level} (folds : level.Folds)
    (operands : ∀ later, later.size ≤ stream.size → Stepwise level.tighter.parser later) :
    Stepwise level.parser stream := by
  rcases Level.parser_eq_chain folds with ⟨operators, parser, _⟩
  rw [parser]
  apply stepwise_takes (Level.takes _ stream) (operands stream (Nat.le_refl _))
  intro first between taken
  apply Stepwise.bind (stepwise_links operators (Level.takes _) fun later smaller =>
    operands later (by omega))
  intro result after _
  exact .pure _ after

theorem stepwise_level (level : Level) (stepwise : StepwiseBelow stream) :
    Stepwise level.parser stream := by
  have all : ∀ later : Stream, later.size ≤ stream.size → Stepwise level.parser later := by
    apply level.climb (motive := fun level =>
      ∀ later : Stream, later.size ≤ stream.size → Stepwise level.parser later)
    · intro later small
      change Stepwise primary later
      rw [primary_eq]
      exact stepwise_primaryWith (stepwise.mono small)
    · intro level proper inner later small
      by_cases folds : level.Folds
      · exact stepwise_fold folds fun last le => inner last (by omega)
      · cases level with
        | power => exact stepwise_power (stepwise.mono small)
        | unary => exact stepwise_unary (stepwise.mono small)
        | call => exact stepwise_call (stepwise.mono small)
        | primary => exact absurd rfl proper
        | _ => exact absurd (by decide) folds
  exact all stream (Nat.le_refl _)

theorem stepwise_expression (stream : Stream) : Stepwise expression stream :=
  stepwise_level .comparison fun later _ => stepwise_expression later
termination_by stream.size

end Expressions

section Statements

variable {nested : Parser Statement} {terminator : Kind}

theorem stepwise_skipSeparators (stream : Stream) : Stepwise (within skipSeparators) stream := by
  rw [separators_round]
  apply stepwise_kind
  split
  · next here =>
    apply stepwise_discard_bind (by rintro ended; simp [ended, Kind.isSeparator] at here)
    intro after smaller
    exact stepwise_skipSeparators after
  · exact .pure () stream
termination_by stream.size

theorem stepwise_separator (stream : Stream) : Stepwise separator stream := by
  apply stepwise_previous
  split
  · apply Stepwise.bind (stepwise_discard (stepwise_expectOneOf (by decide) stream))
    intro _ after _
    exact stepwise_skipSeparators after
  · exact stepwise_skipSeparators stream

theorem stepwise_statementsUntil {stream : Stream} (takes : ∀ stream, Agree 1 stream nested nested)
    (items : ∀ later, later.size ≤ stream.size → Stepwise nested later) :
    Stepwise (within (statementsUntil terminator nested)) stream := by
  rw [statements_round takes]
  apply stepwise_kind
  split
  · exact .pure [] stream
  · apply stepwise_kind
    split
    · exact stepwise_unexpected _ stream
    · apply stepwise_takes (takes stream) (items stream (Nat.le_refl _))
      intro first between taken
      apply stepwise_kind
      split
      · exact .pure _ between
      · apply stepwise_takes (agree_separator between) (stepwise_separator between)
        intro _ next taken'
        apply Stepwise.bind (stepwise_statementsUntil takes fun later small =>
          items later (by omega))
        intro others after _
        exact .pure _ after
termination_by stream.size

theorem stepwise_statementList (takes : ∀ stream, Agree 1 stream nested nested)
    (items : ∀ later, later.size ≤ stream.size → Stepwise nested later) :
    Stepwise (statementList terminator nested) stream := by
  apply stepwise_takes (agree_skipSeparators stream) (stepwise_skipSeparators stream)
  intro _ next taken
  exact stepwise_statementsUntil takes fun later small => items later (by omega)

theorem stepwise_blockWith (takes : ∀ stream, Agree 1 stream nested nested)
    (stepwise : ∀ later, later.size < stream.size → Stepwise nested later) :
    Stepwise (blockWith nested) stream := by
  apply stepwise_takes (agree_expectOneOf (by decide) stream)
    (stepwise_expectOneOf (by decide) stream)
  intro opening next taken
  apply Stepwise.bind (stepwise_statementList takes fun later small => stepwise later (by omega))
  intro statements between _
  apply Stepwise.bind (stepwise_discard (stepwise_expectOneOf (by decide) between))
  intro _ after _
  exact .pure _ after

theorem stepwise_declaration (word : Token) (stream : Stream) :
    Stepwise (declaration word) stream := by
  rw [declaration]
  split
  · split
    · exact .pure _ stream
    · exact .fail _ stream
  · exact .pure none stream

theorem stepwise_assignment (more : stream.current.kind ≠ .endOfInput) :
    Stepwise assignment stream := by
  apply stepwise_advance_bind more
  intro start _
  apply Stepwise.bind (stepwise_declaration _ start)
  intro declared start _
  apply Stepwise.bind (stepwise_identifier start)
  intro name between _
  apply Stepwise.bind (stepwise_discard (stepwise_expectOneOf (by decide) between))
  intro _ next _
  apply Stepwise.bind (stepwise_expression next)
  intro value after _
  exact .pure _ after

theorem stepwise_conditionWith (word : stream.current.kind = .keyword .ifWord)
    (takes : ∀ stream, Agree 1 stream nested nested)
    (stepwise : ∀ later, later.size < stream.size → Stepwise nested later) :
    Stepwise (conditionWith nested) stream := by
  apply stepwise_advance_bind (by simp [word])
  intro start smaller
  apply stepwise_takes (agree_expression start) (stepwise_expression start)
  intro condition between taken
  apply stepwise_current
  split
  · next goesOn =>
    apply stepwise_discard_bind (by simp [goesOn])
    intro next smaller'
    apply stepwise_takes (takes next) (stepwise next (by omega))
    intro consequence last taken'
    apply stepwise_kind
    split
    · next otherwise =>
      apply stepwise_discard_bind (by simp [otherwise])
      intro other smaller''
      apply Stepwise.bind (stepwise other (by omega))
      intro alternative after _
      exact .pure _ after
    · exact .pure _ last
  · exact .fail _ between

theorem stepwise_definitionWith (word : stream.current.kind = .keyword .funcWord)
    (takes : ∀ stream, Agree 1 stream nested nested)
    (stepwise : ∀ later, later.size < stream.size → Stepwise nested later) :
    Stepwise (definitionWith nested) stream := by
  apply stepwise_advance_bind (by simp [word])
  intro start smaller
  apply stepwise_takes (agree_identifier start) (stepwise_identifier start)
  intro name between taken
  apply stepwise_takes (agree_discard (agree_expectOneOf (by decide) between))
    (stepwise_discard (stepwise_expectOneOf (by decide) between))
  intro _ next taken'
  apply stepwise_takes (agree_commaSeparated (by decide) fun later _ => agree_identifier later)
    (stepwise_commaSeparated (by decide) agree_identifier fun later _ => stepwise_identifier later)
  intro params last taken''
  apply Stepwise.bind (stepwise_blockWith takes fun later small => stepwise later (by omega))
  intro body after _
  exact .pure _ after

theorem stepwise_statementWith (takes : ∀ stream, Agree 1 stream nested nested)
    (stepwise : ∀ later, later.size < stream.size → Stepwise nested later) :
    Stepwise (statementWith nested) stream := by
  apply stepwise_kind
  split
  · next word => exact stepwise_assignment (by simp [word])
  · next type word => exact stepwise_assignment (by simp [word])
  · next word => exact stepwise_conditionWith word takes stepwise
  · next word => exact stepwise_definitionWith word takes stepwise
  · next word =>
    apply stepwise_advance_bind (by simp [word])
    intro next _
    apply Stepwise.bind (stepwise_expression next)
    intro value after _
    exact .pure _ after
  · next word =>
    apply stepwise_advance_bind (by simp [word])
    intro after _
    exact .pure _ after
  · apply Stepwise.bind (stepwise_blockWith takes stepwise)
    intro body after _
    exact .pure _ after
  · apply Stepwise.bind (stepwise_expression stream)
    intro value after _
    exact .pure _ after

theorem stepwise_statement (stream : Stream) : Stepwise statement stream := by
  rw [statement_round]
  exact stepwise_statementWith agree_statement fun later _ => stepwise_statement later
termination_by stream.size

theorem stepwise_block (stream : Stream) : Stepwise block stream :=
  stepwise_blockWith agree_statement fun later _ => stepwise_statement later

theorem stepwise_program (stream : Stream) : Stepwise program stream :=
  stepwise_statementList agree_statement fun later _ => stepwise_statement later

end Statements

end Parser

end Calculator

import Calculator.Proofs.Grammar.ExpressionRounds

/-!
The recursion of the parsers of statements. Statements recur through blocks, conditions and
definitions, lists of statements through the separators between them.
-/

namespace Calculator

theorem Kind.isSeparator_iff {kind : Kind} :
    kind.isSeparator ↔ kind = .newline ∨ kind = .semicolon := by
  cases kind <;> simp [Kind.isSeparator]

namespace Parser

section Lists

variable {stream : Stream} {item item' : Parser Statement} {terminator : Kind}

def separatorsRound (rest : Parser Unit) : Parser Unit := do
  if (← kind).isSeparator then
    discard advance
    rest

def statementsRound (terminator : Kind) (statement : Parser Statement)
    (rest : Parser (List Statement)) : Parser (List Statement) := do
  if (← kind) = terminator then return []
  else if (← kind) = .endOfInput then unexpected (.anyOf [terminator])
  else
    let first ← statement
    if (← kind) = terminator then return [first]
    else
      separator
      return first :: (← rest)

theorem unfolds_skipSeparators : Unfolds skipSeparators separatorsRound := by
  refine ⟨fun _ _ => rfl, ?_⟩
  intro stream rest used
  rw [skipSeparators, separatorsRound, run_kind_bind, Stream.atEnd_of_size used]
  rfl

theorem unfolds_statementsUntil :
    Unfolds (statementsUntil terminator item) (statementsRound terminator item) := by
  refine ⟨fun _ _ => rfl, ?_⟩
  intro stream rest used
  rw [statementsUntil, statementsRound, run_kind_bind, run_kind_bind]
  split
  · rfl
  · rw [run_kind_bind, if_pos (Stream.atEnd_of_size used)]

theorem agree_separatorsRound {rest rest' : Parser Unit}
    (recur : ∀ later, later.size < stream.size → Agree 0 later rest rest') :
    Agree 0 stream (separatorsRound rest) (separatorsRound rest') := by
  refine agree_kind ?_
  split
  · next here =>
      have more : stream.current.kind ≠ .endOfInput := by
        intro ended
        simp [ended, Kind.isSeparator] at here
      refine agree_then (agree_discard (agree_advance more)) ?_
      intro _ after taken
      exact recur after (by omega)
  · exact agree_pure () stream

theorem separators_round : within skipSeparators = separatorsRound (within skipSeparators) := by
  refine within_eq 0 unfolds_skipSeparators ?_
  intro stream rest rest' recur
  exact agree_separatorsRound recur

theorem agree_skipSeparators (stream : Stream) :
    Agree 0 stream (within skipSeparators) (within skipSeparators) := by
  refine agree_within unfolds_skipSeparators unfolds_skipSeparators ?_
  intro later rest rest' _ recur
  exact agree_separatorsRound recur

theorem agree_separator (stream : Stream) : Agree 0 stream separator separator := by
  refine agree_previous ?_
  split
  · refine agree_then (agree_discard (agree_expectOneOf (by decide) stream)) ?_
    intro _ after _
    exact agree_skipSeparators after
  · exact agree_skipSeparators stream

theorem agree_statementsRound (agree : Agree 1 stream item item')
    {rest rest' : Parser (List Statement)}
    (recur : ∀ later, later.size < stream.size → Agree 0 later rest rest') :
    Agree 0 stream (statementsRound terminator item rest)
      (statementsRound terminator item' rest') := by
  refine agree_kind ?_
  split
  · exact agree_pure [] stream
  · refine agree_kind ?_
    split
    · exact agree_unexpected 0 _ stream
    · refine agree_then agree ?_
      intro first after taken
      refine agree_kind ?_
      split
      · exact agree_pure [first] after
      · refine agree_bind (agree_separator after) ?_
        intro _ later taken'
        refine agree_bind (recur later (by omega)) ?_
        intro others last _
        exact agree_pure _ last

theorem agree_statementsUntil
    (agree : ∀ later, later.size ≤ stream.size → Agree 1 later item item') :
    Agree 0 stream (within (statementsUntil terminator item))
      (within (statementsUntil terminator item')) := by
  refine agree_within unfolds_statementsUntil unfolds_statementsUntil ?_
  intro later rest rest' small recur
  exact agree_statementsRound (agree later small) recur

theorem statements_round (takes : ∀ stream, Agree 1 stream item item) :
    within (statementsUntil terminator item) =
      statementsRound terminator item (within (statementsUntil terminator item)) := by
  refine within_eq 0 unfolds_statementsUntil ?_
  intro stream rest rest' recur
  exact agree_statementsRound (takes stream) recur

theorem agree_statementList (agree : ∀ later, later.size ≤ stream.size → Agree 1 later item item') :
    Agree 0 stream (statementList terminator item) (statementList terminator item') := by
  refine agree_bind (agree_skipSeparators stream) ?_
  intro _ after taken
  exact agree_statementsUntil fun later small => agree later (by omega)

end Lists

section Statements

variable {stream : Stream} {nested nested' : Parser Statement}

theorem agree_blockWith
    (agree : ∀ later, later.size < stream.size → Agree 1 later nested nested') :
    Agree 1 stream (blockWith nested) (blockWith nested') := by
  refine agree_bind (agree_expectOneOf (by decide) stream) ?_
  intro opening after taken
  refine agree_bind (agree_statementList fun later small => agree later (by omega)) ?_
  intro statements later _
  refine agree_then (agree_discard (agree_expectOneOf (by decide) later)) ?_
  intro _ last _
  exact agree_pure _ last

theorem agree_declaration (word : Token) (stream : Stream) :
    Agree 0 stream (declaration word) (declaration word) := by
  rw [declaration]
  split
  · split
    · exact agree_pure _ stream
    · exact agree_fail 0 _ stream
  · exact agree_pure none stream

theorem agree_assignment (more : stream.current.kind ≠ .endOfInput) :
    Agree 1 stream assignment assignment := by
  refine agree_bind (agree_advance more) ?_
  intro word after _
  refine agree_bind (agree_declaration word after) ?_
  intro declared after _
  refine agree_then (agree_identifier after) ?_
  intro name after _
  refine agree_then (agree_discard (agree_expectOneOf (by decide) after)) ?_
  intro _ after _
  refine agree_then (agree_expression after) ?_
  intro value after _
  exact agree_pure _ after

theorem agree_conditionWith (more : stream.current.kind ≠ .endOfInput)
    (agree : ∀ later, later.size < stream.size → Agree 1 later nested nested') :
    Agree 1 stream (conditionWith nested) (conditionWith nested') := by
  refine agree_bind (agree_advance more) ?_
  intro word next taken
  refine agree_then (agree_expression next) ?_
  intro condition between _
  refine agree_current ?_
  split
  · next here =>
      refine agree_then (agree_discard (agree_advance (by simp [here]))) ?_
      intro _ later _
      refine agree_then (agree later (by omega)) ?_
      intro consequence after _
      refine agree_kind ?_
      split
      · next goesOn =>
          refine agree_then (agree_discard (agree_advance (by simp [goesOn]))) ?_
          intro _ last _
          refine agree_then (agree last (by omega)) ?_
          intro alternative final _
          exact agree_pure _ final
      · exact agree_pure _ after
  · exact agree_fail 0 _ between

theorem agree_definitionWith (more : stream.current.kind ≠ .endOfInput)
    (agree : ∀ later, later.size < stream.size → Agree 1 later nested nested') :
    Agree 1 stream (definitionWith nested) (definitionWith nested') := by
  refine agree_bind (agree_advance more) ?_
  intro word next taken
  refine agree_then (agree_identifier next) ?_
  intro name between _
  refine agree_then (agree_discard (agree_expectOneOf (by decide) between)) ?_
  intro _ later _
  refine agree_then (agree_commaSeparated (by decide) fun last _ => agree_identifier last)
    ?_
  intro params last _
  refine agree_then (agree_blockWith fun final _ => agree final (by omega)) ?_
  intro body after _
  exact agree_pure _ after

theorem agree_statementWith
    (agree : ∀ later, later.size < stream.size → Agree 1 later nested nested') :
    Agree 1 stream (statementWith nested) (statementWith nested') := by
  refine agree_kind ?_
  split
  · next here => exact agree_assignment (by simp [here])
  · next here => exact agree_assignment (by simp [here])
  · next here => exact agree_conditionWith (by simp [here]) agree
  · next here => exact agree_definitionWith (by simp [here]) agree
  · next here =>
      refine agree_bind (agree_advance (by simp [here])) ?_
      intro word after _
      refine agree_then (agree_expression after) ?_
      intro value last _
      exact agree_pure _ last
  · next here =>
      refine agree_bind (agree_advance (by simp [here])) ?_
      intro word after _
      exact agree_pure _ after
  · refine agree_bind (agree_blockWith agree) ?_
    intro body after _
    exact agree_pure _ after
  · refine agree_bind (agree_expression stream) ?_
    intro value after _
    exact agree_pure _ after

theorem run_statementWith_atEnd (nested : Parser Statement)
    (ended : stream.current.kind = .endOfInput) :
    (statementWith nested).run stream =
      (.error (stream.unexpected (.phrase "expression")), stream) := by
  have fails : expression.run stream =
      (.error (stream.unexpected (.phrase "expression")), stream) := by
    have expands : expression = levelWith expression precedence := level_eq 0
    rw [expands]
    exact run_levelWith_atEnd expression precedence ended
  rw [statementWith, run_kind_bind, ended]
  simp only [run_bind, fails]

theorem unfolds_nestedStatement : Unfolds nestedStatement statementWith := by
  refine ⟨fun _ _ => rfl, ?_⟩
  intro stream rest used
  rw [run_statementWith_atEnd rest (Stream.atEnd_of_size used)]
  rfl

theorem agree_nestedStatement {room room' : List Token} (enough : stream.size ≤ room.length)
    (enough' : stream.size ≤ room'.length) :
    Agree 1 stream (nestedStatement room) (nestedStatement room') := by
  refine agree_rooms unfolds_nestedStatement unfolds_nestedStatement ?_ room room' stream
    (Nat.le_refl _) enough enough'
  intro later rest rest' _ recur
  exact agree_statementWith recur

theorem run_statement (stream : Stream) :
    statement.run stream = (nestedStatement (stream.current :: stream.rest)).run stream :=
  run_within (fun room => statementWith (nestedStatement room)) stream

theorem statement_round : statement = statementWith statement := by
  funext stream
  have enough := stream.size_le_length_rest
  have agree : Agree 1 stream (statementWith (nestedStatement stream.rest))
      (statementWith statement) := by
    refine agree_statementWith ?_
    intro later smaller
    have fits := later.size_le_length_rest
    have nested : Agree 1 later (nestedStatement stream.rest)
        (nestedStatement (later.current :: later.rest)) := by
      refine agree_nestedStatement (by omega) ?_
      rw [List.length_cons]
      omega
    exact nested.of_run rfl (run_statement later)
  exact agree.same

theorem agree_statement (stream : Stream) : Agree 1 stream statement statement := by
  have enough : stream.size ≤ (stream.current :: stream.rest).length := by
    have fits := stream.size_le_length_rest
    rw [List.length_cons]
    omega
  exact (agree_nestedStatement enough enough).of_run (run_statement stream) (run_statement stream)

end Statements

section Successes

variable {stream after : Stream} {nested : Parser Statement} {result : Statement}

theorem yields_separatorsRound {rest : Parser Unit} {done : Unit} :
    (separatorsRound rest).Yields stream done after ↔
      (stream.current.kind.isSeparator ∧ ∃ next, stream.advance = .ok next ∧
          rest.Yields next done after) ∨
        (¬ stream.current.kind.isSeparator ∧ after = stream) := by
  simp [separatorsRound, and_assoc]

theorem yields_separator {done : Unit} :
    separator.Yields stream done after ↔
      (stream.previous = some .rightBrace ∧ (within skipSeparators).Yields stream done after) ∨
        (stream.previous ≠ some .rightBrace ∧ stream.current.kind.isSeparator ∧
          ∃ next, stream.advance = .ok next ∧ (within skipSeparators).Yields next done after) := by
  simp [separator, Kind.isSeparator_iff, and_assoc]

theorem yields_statementsRound {terminator : Kind} {rest : Parser (List Statement)}
    {statements : List Statement} :
    (statementsRound terminator nested rest).Yields stream statements after ↔
      (stream.current.kind = terminator ∧ statements = [] ∧ after = stream) ∨
        (stream.current.kind ≠ terminator ∧ stream.current.kind ≠ .endOfInput ∧
          ∃ first between, nested.Yields stream first between ∧
            ((between.current.kind = terminator ∧ statements = [first] ∧ after = between) ∨
              (between.current.kind ≠ terminator ∧ ∃ done next, separator.Yields between done next ∧
                ∃ others, rest.Yields next others after ∧ statements = first :: others))) := by
  simp [statementsRound, and_assoc]

theorem yields_statementList {terminator : Kind} {statements : List Statement} :
    (statementList terminator nested).Yields stream statements after ↔
      ∃ done next, (within skipSeparators).Yields stream done next ∧
        (within (statementsUntil terminator nested)).Yields next statements after := by
  simp [statementList]

theorem yields_blockWith {body : Block} :
    (blockWith nested).Yields stream body after ↔
      stream.current.kind = .leftBrace ∧ ∃ next, stream.advance = .ok next ∧
        ∃ statements between,
          (statementList .rightBrace nested).Yields next statements between ∧
            between.current.kind = .rightBrace ∧ between.advance = .ok after ∧
              body = ⟨statements, stream.current.pos⟩ := by
  simp [blockWith, and_assoc]

theorem yields_conditionWith :
    (conditionWith nested).Yields stream result after ↔
      ∃ start, stream.advance = .ok start ∧ ∃ condition between,
        expression.Yields start condition between ∧ between.current.kind = .keyword .thenWord ∧
          ∃ next, between.advance = .ok next ∧ ∃ consequence last,
            nested.Yields next consequence last ∧
              ((last.current.kind = .keyword .elseWord ∧ ∃ other, last.advance = .ok other ∧
                  ∃ alternative, nested.Yields other alternative after ∧
                    result = .ifElse condition consequence alternative stream.current.pos) ∨
                (last.current.kind ≠ .keyword .elseWord ∧
                  result = .ifThen condition consequence stream.current.pos ∧ after = last)) := by
  simp [conditionWith, and_assoc]

theorem yields_definitionWith :
    (definitionWith nested).Yields stream result after ↔
      ∃ start, stream.advance = .ok start ∧ start.current.kind = .identifier ∧
        ∃ between, start.advance = .ok between ∧ between.current.kind = .leftParen ∧
          ∃ next, between.advance = .ok next ∧ ∃ params last,
            (commaSeparated identifier .rightParen).Yields next params last ∧
              ∃ body, (blockWith nested).Yields last body after ∧
                result = .define ⟨start.current.text, params, body, stream.current.pos⟩ := by
  simp [definitionWith, and_assoc]

theorem yields_declaration {word : Token} {declared : Option NumberType} :
    (declaration word).Yields stream declared after ↔
      ((word.kind = .typeWord ∧ declared.isSome ∧ NumberType.ofName? word.text = declared) ∨
        (word.kind ≠ .typeWord ∧ declared = none)) ∧ after = stream := by
  rw [declaration]
  split
  · next type => cases found : NumberType.ofName? word.text <;> grind [yields_pure, yields_fail]
  · next other => simp [other]

theorem yields_assignment :
    assignment.Yields stream result after ↔
      ∃ start, stream.advance = .ok start ∧ ∃ declared,
        ((stream.current.kind = .typeWord ∧ declared.isSome ∧
            NumberType.ofName? stream.current.text = declared) ∨
          (stream.current.kind ≠ .typeWord ∧ declared = none)) ∧
          start.current.kind = .identifier ∧ ∃ between, start.advance = .ok between ∧
            between.current.kind = .assign ∧ ∃ next, between.advance = .ok next ∧
              ∃ value, expression.Yields next value after ∧
                result = .assign start.current.text declared value stream.current.pos := by
  simp [assignment, yields_declaration, and_assoc]

theorem yields_statementWith :
    (statementWith nested).Yields stream result after ↔
      match stream.current.kind with
      | .keyword .setWord | .typeWord => assignment.Yields stream result after
      | .keyword .ifWord => (conditionWith nested).Yields stream result after
      | .keyword .funcWord => (definitionWith nested).Yields stream result after
      | .keyword .printWord => ∃ next, stream.advance = .ok next ∧ ∃ value,
          expression.Yields next value after ∧ result = .print value stream.current.pos
      | .keyword .resetWord => stream.advance = .ok after ∧ result = .reset stream.current.pos
      | .leftBrace => ∃ body, (blockWith nested).Yields stream body after ∧ result = .block body
      | _ => ∃ value, expression.Yields stream value after ∧ result = .expression value := by
  rw [statementWith, yields_bind]
  simp only [yields_kind, and_assoc, exists_and_left, exists_eq_left]
  split
  all_goals simp [*, and_assoc]

end Successes

end Parser

end Calculator

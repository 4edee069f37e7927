import Calculator.Proofs.Grammar.StatementSoundness

/-!
The parser of programs accepts what the grammar of statements allows, and nothing else, and no
tokens have two readings.
-/

namespace Calculator

open Calculator.Parser

def Kind.beginsStatement : Kind → Bool
  | .keyword .setWord | .keyword .ifWord | .keyword .funcWord | .keyword .printWord
  | .keyword .resetWord | .typeWord | .leftBrace => true
  | kind => kind.beginsExpression

def Kind.inExpressions : Kind → Bool
  | .number | .decimal | .identifier | .operator _ | .leftParen | .rightParen | .comma => true
  | _ => false

/-- What may stand behind a statement: nothing that continues an expression at its end, and no
alternative that a condition at its end would take. -/
def Statement.Stops (result : Statement) (tokens : List Token) (kind : Kind) : Prop :=
  (EndsInBrace tokens ∨ ¬ Level.comparison.Continues kind) ∧
    (result.endsOpen → kind ≠ .keyword .elseWord)

def StatementCompletes (tokens : List Token) (result : Statement) : Prop :=
  ∀ stream after, stream.Passes tokens after → result.Stops tokens after.current.kind →
    statement.Yields stream result after

def BlockCompletes (tokens : List Token) (body : Block) : Prop :=
  ∀ stream after, stream.Passes tokens after → block.Yields stream body after

def BodyCompletes (tokens : List Token) (statements : List Statement) : Prop :=
  ∀ terminator stream after, terminator = .rightBrace ∨ terminator = .endOfInput →
    stream.Passes tokens after → after.current.kind = terminator →
      (within (statementsUntil terminator statement)).Yields stream statements after

section Words

variable {tokens : List Token}

theorem Enclosed.inExpressions {name : Token} (callee : Enclosed tokens name) :
    ∀ token ∈ tokens, token.kind.inExpressions := by
  induction callee with
  | name kind => simp [kind, Kind.inExpressions]
  | parens opens _ closes ih =>
    simp only [List.cons_append, List.forall_mem_cons, List.forall_mem_append]
    exact ⟨by simp [opens, Kind.inExpressions], ih, by simp [closes, Kind.inExpressions], by simp⟩

theorem Derives.inExpressions {level : Level} {tree : Expr}
    (derives : Derives Enclosed level tokens tree) :
    ∀ token ∈ tokens, token.kind.inExpressions := by
  refine derives.induct (fun _ tokens _ => ∀ token ∈ tokens, token.kind.inExpressions)
    ?tighter ?fold ?power ?negate ?call ?number ?decimal ?name ?parens
  case tighter => exact fun _ inner => inner
  case fold =>
    intro level tokens rest first links _ front linked _
    have back := linked.all (fun _ _ kind => by simp [kind, Kind.inExpressions])
      fun _ _ _ operand => operand
    exact List.forall_mem_append.mpr ⟨front, back⟩
  case power =>
    intro word tokens rest base exponent left operator right
    simp only [List.forall_mem_cons, List.forall_mem_append]
    exact ⟨left, by simp [operator, Kind.inExpressions], right⟩
  case negate =>
    intro word tokens operand operator inner
    exact List.forall_mem_cons.mpr ⟨by simp [operator, Kind.inExpressions], inner⟩
  case call =>
    intro name opening closing front tokens arguments callee opens inner closes
    have inside := inner.all (fun _ kind => by simp [kind, Kind.inExpressions])
      fun _ _ argument => argument
    simp only [List.forall_mem_cons, List.forall_mem_append]
    exact ⟨callee.inExpressions, by simp [opens, Kind.inExpressions], inside,
      by simp [closes, Kind.inExpressions], by simp⟩
  case parens =>
    intro opening closing tokens tree opens inner closes
    simp only [List.forall_mem_cons, List.forall_mem_append]
    exact ⟨by simp [opens, Kind.inExpressions], inner, by simp [closes, Kind.inExpressions],
      by simp⟩
  all_goals
    intro word kind
    simp [kind, Kind.inExpressions]

theorem Kind.of_inExpressions {kind : Kind} (inner : kind.inExpressions) :
    kind ≠ .rightBrace ∧ kind ≠ .endOfInput := by
  constructor
  · rintro rfl
    cases inner
  · rintro rfl
    cases inner

theorem Derives.kinds {level : Level} {tree : Expr}
    (derives : Derives Enclosed level tokens tree) :
    ∀ token ∈ tokens, token.kind ≠ .rightBrace ∧ token.kind ≠ .endOfInput :=
  fun token member => Kind.of_inExpressions (derives.inExpressions token member)

theorem Level.Stands.not_endsInBrace {level : Level} {tree : Expr}
    (stands : level.Stands tokens tree) : ¬ EndsInBrace tokens := by
  intro brace
  obtain ⟨last, ends, kind⟩ := Option.map_eq_some_iff.mp brace
  exact (stands.1.kinds last (List.mem_of_getLast? ends)).1 kind

theorem Derives.ne_nil {callees : Callees} {level : Level} {tree : Expr}
    (derives : Derives callees level tokens tree) : tokens ≠ [] := by
  refine derives.induct (fun _ tokens _ => tokens ≠ [])
    ?tighter ?fold ?power ?negate ?call ?number ?decimal ?name ?parens
  case tighter => exact fun _ inner => inner
  case fold =>
    intro level tokens rest first links _ front _ _
    exact List.append_ne_nil_of_left_ne_nil front rest
  all_goals
    intros
    simp

theorem endsInBrace_append {front : List Token} (nonempty : tokens ≠ []) :
    EndsInBrace (front ++ tokens) ↔ EndsInBrace tokens := by
  rw [EndsInBrace, List.getLast?_append_of_ne_nil _ nonempty, EndsInBrace]

end Words

section Completeness

variable {stream after : Stream} {tokens : List Token} {result : Statement}

theorem Kind.not_isSeparator_of_begins {kind : Kind} (begins : kind.beginsStatement) :
    ¬ kind.isSeparator := by
  rw [isSeparator_iff]
  rintro (rfl | rfl)
  all_goals exact absurd begins (by decide)

theorem Kind.not_terminator_of_begins {kind : Kind} (begins : kind.beginsStatement) :
    ¬ (kind = .rightBrace ∨ kind = .endOfInput) := by
  rintro (rfl | rfl)
  all_goals exact absurd begins (by decide)

theorem Statement.Stops.of_stands {kind : Kind} {value : Expr} (front : List Token)
    (stops : result.Stops (front ++ tokens) kind) (stands : Level.comparison.Stands tokens value) :
    ¬ Level.comparison.Continues kind := by
  rcases stops.1 with brace | stops
  · exact absurd ((endsInBrace_append stands.1.ne_nil).mp brace) stands.not_endsInBrace
  · exact stops

theorem Statement.Stops.of_last {kind : Kind} {front : List Token}
    (stops : result.Stops (front ++ tokens) kind) (nonempty : tokens ≠ []) :
    EndsInBrace tokens ∨ ¬ Level.comparison.Continues kind :=
  stops.1.imp_left (endsInBrace_append nonempty).mp

theorem statement_begins (yields : statement.Yields stream result after) :
    stream.current.kind.beginsStatement := by
  rw [statement_round, yields_statementWith] at yields
  split at yields
  · next word => simp [word, Kind.beginsStatement]
  · next word => simp [word, Kind.beginsStatement]
  · next word => simp [word, Kind.beginsStatement]
  · next word => simp [word, Kind.beginsStatement]
  · next word => simp [word, Kind.beginsStatement]
  · next word => simp [word, Kind.beginsStatement]
  · next word => simp [word, Kind.beginsStatement]
  · obtain ⟨value, valued, _⟩ := yields
    have begins := level_begins .comparison valued
    unfold Kind.beginsStatement
    split <;> first | rfl | exact begins

theorem expression_completes {value : Expr} (stands : Level.comparison.Stands tokens value)
    (passed : stream.Passes tokens after)
    (stops : ¬ Level.comparison.Continues after.current.kind) :
    expression.Yields stream value after :=
  stands.1.completes stands.2 stream after passed stops

theorem StatementForm.ne_nil (form : StatementForm tokens result) : tokens ≠ [] := by
  cases form with
  | block block =>
    cases block
    exact List.cons_ne_nil _ _
  | expression stands => exact stands.1.ne_nil
  | _ => exact List.cons_ne_nil _ _

theorem skips_complete {gap : List Token} {done : Unit} (separators : Separators gap)
    (passed : stream.Passes gap after) (stops : ¬ after.current.kind.isSeparator) :
    (within skipSeparators).Yields stream done after := by
  induction gap generalizing stream with
  | nil =>
    obtain rfl := Stream.passes_nil.mp passed
    rw [separators_round, yields_separatorsRound]
    exact .inr ⟨stops, rfl⟩
  | cons token gap ih =>
    obtain ⟨rfl, next, moved, passed⟩ := Stream.passes_cons.mp passed
    obtain ⟨here, separators⟩ := separators_cons.mp separators
    rw [separators_round, yields_separatorsRound]
    exact .inl ⟨here, next, moved, ih separators passed⟩

theorem separator_complete {gap : List Token} {done : Unit} (separators : Separators gap)
    (passed : stream.Passes gap after) (stops : ¬ after.current.kind.isSeparator)
    (apart : gap ≠ [] ∨ stream.previous = some .rightBrace) :
    separator.Yields stream done after := by
  rw [yields_separator]
  by_cases brace : stream.previous = some .rightBrace
  · exact .inl ⟨brace, skips_complete separators passed stops⟩
  · cases gap with
    | nil => exact absurd (apart.resolve_left fun between => between rfl) brace
    | cons token gap =>
      obtain ⟨rfl, next, moved, passed⟩ := Stream.passes_cons.mp passed
      obtain ⟨here, separators⟩ := separators_cons.mp separators
      exact .inr ⟨brace, here, next, moved, skips_complete separators passed stops⟩

theorem body_nil : BodyCompletes [] [] := by
  intro terminator stream after _ passed ended
  obtain rfl := Stream.passes_nil.mp passed
  rw [statements_round agree_statement, yields_statementsRound]
  exact .inl ⟨ended, rfl, rfl⟩

theorem body_begins {terminator : Kind} {statements : List Statement}
    (yields : (within (statementsUntil terminator statement)).Yields stream statements after) :
    (statements = [] ∧ stream.current.kind = terminator ∧ after = stream) ∨
      (statements ≠ [] ∧ stream.current.kind.beginsStatement) := by
  rw [statements_round agree_statement, yields_statementsRound] at yields
  rcases yields with ⟨ended, rfl, rfl⟩ | ⟨_, _, first, between, started, ends⟩
  · exact .inl ⟨rfl, ended, rfl⟩
  · refine .inr ⟨?_, statement_begins started⟩
    rcases ends with ⟨_, rfl, _⟩ | ⟨_, _, _, _, others, _, rfl⟩
    · exact List.cons_ne_nil _ _
    · exact List.cons_ne_nil _ _

theorem body_reached {terminator : Kind} {statements : List Statement}
    (ends : terminator = .rightBrace ∨ terminator = .endOfInput)
    (yields : (within (statementsUntil terminator statement)).Yields stream statements after) :
    ¬ stream.current.kind.isSeparator := by
  rcases body_begins yields with ⟨_, same, _⟩ | ⟨_, begins⟩
  · rw [same]
    rcases ends with rfl | rfl
    all_goals decide
  · exact Kind.not_isSeparator_of_begins begins

theorem Statement.stops_of_kind {kind : Kind}
    (behind : kind.isSeparator ∨ kind = .rightBrace ∨ kind = .endOfInput) :
    result.Stops tokens kind := by
  rw [Kind.isSeparator_iff] at behind
  rcases behind with (rfl | rfl) | rfl | rfl
  all_goals exact ⟨.inr (Level.not_continues_of_kind (by simp) (by simp)), by simp⟩

/-- Behind a statement of a list stands a separator, the end of the list, or, when it ends in a
brace, another statement. -/
theorem body_stops {gap : List Token} {first : Statement} {others : List Statement}
    {terminator : Kind} {next : Stream} (ends : terminator = .rightBrace ∨ terminator = .endOfInput)
    (separators : Separators gap) (apart : others = [] ∨ gap ≠ [] ∨ EndsInBrace tokens)
    (skipped : stream.Passes gap next)
    (remaining : (within (statementsUntil terminator statement)).Yields next others after) :
    first.Stops tokens stream.current.kind := by
  cases gap with
  | nil =>
    obtain rfl := Stream.passes_nil.mp skipped
    rcases body_begins remaining with ⟨_, ended, _⟩ | ⟨nonempty, begins⟩
    · refine Statement.stops_of_kind (.inr ?_)
      rw [ended]
      exact ends
    · have brace := (apart.resolve_left nonempty).resolve_left fun between => between rfl
      refine ⟨.inl brace, ?_⟩
      intro _ otherwise
      simp [otherwise, Kind.beginsStatement, Kind.beginsExpression, Kind.beginsPrimary] at begins
  | cons token gap =>
    obtain ⟨rfl, _⟩ := Stream.passes_cons.mp skipped
    exact Statement.stops_of_kind (.inl (separators_cons.mp separators).1)

theorem gap_of_end {gap : List Token} {terminator : Kind} {next : Stream}
    (ends : terminator = .rightBrace ∨ terminator = .endOfInput) (separators : Separators gap)
    (skipped : stream.Passes gap next) (here : stream.current.kind = terminator) : gap = [] := by
  cases gap with
  | nil => rfl
  | cons token gap =>
    obtain ⟨rfl, _⟩ := Stream.passes_cons.mp skipped
    have separates := (separators_cons.mp separators).1
    rw [here] at separates
    rcases ends with rfl | rfl
    all_goals exact absurd separates (by decide)

/-- Where the list goes on a separator is given, or the token before is a brace. -/
theorem body_apart {gap : List Token} {others : List Statement} {terminator : Kind}
    {between next : Stream} (apart : others = [] ∨ gap ≠ [] ∨ EndsInBrace tokens)
    (nonempty : tokens ≠ []) (front : stream.Passes tokens between)
    (skipped : between.Passes gap next) (goesOn : between.current.kind ≠ terminator)
    (remaining : (within (statementsUntil terminator statement)).Yields next others after) :
    gap ≠ [] ∨ between.previous = some .rightBrace := by
  by_cases empty : gap = []
  · subst empty
    obtain rfl := Stream.passes_nil.mp skipped
    have more : others ≠ [] := by
      rcases body_begins remaining with ⟨_, same, _⟩ | ⟨more, _⟩
      · exact absurd same goesOn
      · exact more
    have brace := (apart.resolve_left more).resolve_left fun gaps => gaps rfl
    exact .inr ((front.endsInBrace_iff nonempty).mp brace)
  · exact .inl empty

theorem body_cons {gap rest : List Token} {first : Statement} {others : List Statement}
    (form : StatementForm tokens first) (complete : StatementCompletes tokens first)
    (separators : Separators gap) (apart : others = [] ∨ gap ≠ [] ∨ EndsInBrace tokens)
    (complete' : BodyCompletes rest others) :
    BodyCompletes (tokens ++ (gap ++ rest)) (first :: others) := by
  intro terminator stream after ends passed ended
  obtain ⟨between, front, back⟩ := Stream.passes_append.mp passed
  obtain ⟨next, skipped, behind⟩ := Stream.passes_append.mp back
  have remaining := complete' terminator next after ends behind ended
  have stops : first.Stops tokens between.current.kind :=
    body_stops ends separators apart skipped remaining
  have started := complete stream between front stops
  have here := Kind.not_terminator_of_begins (statement_begins started)
  rw [statements_round agree_statement, yields_statementsRound]
  refine .inr ⟨fun same => here (same ▸ ends), fun same => here (.inr same), first, between,
    started, ?_⟩
  by_cases last : between.current.kind = terminator
  · obtain rfl := gap_of_end ends separators skipped last
    obtain rfl := Stream.passes_nil.mp skipped
    -- The list ends at once: no statement begins with the token that ends it.
    rcases body_begins remaining with ⟨rfl, _, rfl⟩ | ⟨_, begins⟩
    · exact .inl ⟨last, rfl, rfl⟩
    · exact absurd (last ▸ ends) (Kind.not_terminator_of_begins begins)
  · have reached := body_reached ends remaining
    have separated := body_apart apart form.ne_nil front skipped last remaining
    exact .inr ⟨last, (), next, separator_complete separators skipped reached separated, others,
      remaining, rfl⟩

theorem list_complete {gap : List Token} {statements : List Statement} {terminator : Kind}
    (ends : terminator = .rightBrace ∨ terminator = .endOfInput) (separators : Separators gap)
    (complete : BodyCompletes tokens statements) (passed : stream.Passes (gap ++ tokens) after)
    (ended : after.current.kind = terminator) :
    (statementList terminator statement).Yields stream statements after := by
  obtain ⟨next, skipped, passed⟩ := Stream.passes_append.mp passed
  have listed := complete terminator next after ends passed ended
  have reached := body_reached ends listed
  exact yields_statementList.mpr ⟨(), next, skips_complete separators skipped reached, listed⟩

theorem block_completes {opening closing : Token} {gap : List Token} {statements : List Statement}
    (opens : opening.kind = .leftBrace) (separators : Separators gap)
    (complete : BodyCompletes tokens statements) (closes : closing.kind = .rightBrace) :
    BlockCompletes (opening :: (gap ++ (tokens ++ [closing]))) ⟨statements, opening.pos⟩ := by
  intro stream after passed
  rw [← List.append_assoc] at passed
  obtain ⟨rfl, start, moved, passed⟩ := Stream.passes_cons.mp passed
  obtain ⟨between, inside, passed⟩ := Stream.passes_append.mp passed
  obtain ⟨rfl, last, moved', passed⟩ := Stream.passes_cons.mp passed
  obtain rfl := Stream.passes_nil.mp passed
  have listed : (statementList .rightBrace statement).Yields start statements between :=
    list_complete (.inl rfl) separators complete inside closes
  exact yields_blockWith.mpr ⟨opens, start, moved, statements, between, listed, closes, moved', rfl⟩

theorem assign_completes {word name equals : Token} {declared : Option NumberType} {value : Expr}
    (declares : Declares word declared) (named : name.kind = .identifier)
    (assigns : equals.kind = .assign) (stands : Level.comparison.Stands tokens value) :
    StatementCompletes (word :: name :: equals :: tokens)
      (.assign name.text declared value word.pos) := by
  intro stream after passed stops
  obtain ⟨rfl, start, moved, passed⟩ := Stream.passes_cons.mp passed
  obtain ⟨rfl, between, moved', passed⟩ := Stream.passes_cons.mp passed
  obtain ⟨rfl, next, moved'', passed⟩ := Stream.passes_cons.mp passed
  have valued := expression_completes stands passed (stops.of_stands [_, _, _] stands)
  have assigned : assignment.Yields stream
      (.assign start.current.text declared value stream.current.pos) after := by
    refine yields_assignment.mpr ⟨start, moved, declared, ?_, named, between, moved', assigns, next,
      moved'', value, valued, rfl⟩
    cases declares with
    | set kind => exact .inr ⟨by simp [kind], rfl⟩
    | type kind name => exact .inl ⟨kind, rfl, name⟩
  rw [statement_round, yields_statementWith]
  cases declares with
  | set kind => simpa only [kind] using assigned
  | type kind _ => simpa only [kind] using assigned

theorem names_completes {later last : Stream} {tokens : List Token} {name : String}
    (names : Names tokens name) (passed : later.Passes tokens last) :
    identifier.Yields later name last := by
  cases names with
  | name kind =>
    obtain ⟨rfl, next, moved, passed⟩ := Stream.passes_cons.mp passed
    obtain rfl := Stream.passes_nil.mp passed
    exact yields_identifier.mpr ⟨kind, rfl, moved⟩

theorem define_completes {word name opening closing : Token} {list : List Token}
    {params : List String} {body : Block} (defines : word.kind = .keyword .funcWord)
    (named : name.kind = .identifier) (opens : opening.kind = .leftParen)
    (names : CommaList Names list params) (closes : closing.kind = .rightParen)
    (block : BlockCompletes tokens body) :
    StatementCompletes (word :: name :: opening :: (list ++ closing :: tokens))
      (.define ⟨name.text, params, body, word.pos⟩) := by
  intro stream after passed _
  obtain ⟨rfl, start, moved, passed⟩ := Stream.passes_cons.mp passed
  obtain ⟨rfl, between, moved', passed⟩ := Stream.passes_cons.mp passed
  obtain ⟨rfl, next, moved'', passed⟩ := Stream.passes_cons.mp passed
  rw [List.append_cons] at passed
  obtain ⟨last, inside, passed⟩ := Stream.passes_append.mp passed
  have listed : (commaSeparated identifier .rightParen).Yields next params last := by
    refine commaSeparated_complete (by decide) (by decide) agree_identifier ?_ ?_ names closes
      inside
    · intro stream value after yields here
      have kind := (yields_identifier.mp yields).1
      simp [kind] at here
    · intro stream tokens value after names passed _
      exact names_completes names passed
  rw [statement_round, yields_statementWith]
  simp only [defines]
  exact yields_definitionWith.mpr ⟨start, moved, named, between, moved', opens, next, moved'',
    params, last, listed, body, block last after passed, rfl⟩

theorem condition_tests {next : Token} {condition : Expr} {later : Stream} {rest : List Token}
    (stands : Level.comparison.Stands tokens condition) (goesOn : next.kind = .keyword .thenWord)
    (passed : stream.Passes (tokens ++ next :: rest) later) :
    ∃ between start, expression.Yields stream condition between ∧
      between.current.kind = .keyword .thenWord ∧ between.advance = .ok start ∧
        start.Passes rest later := by
  obtain ⟨between, front, back⟩ := Stream.passes_append.mp passed
  obtain ⟨rfl, start, moved, back⟩ := Stream.passes_cons.mp back
  refine ⟨between, start, expression_completes stands front ?_, goesOn, moved, back⟩
  exact Level.not_continues_of_kind (by simp [goesOn]) (by simp [goesOn])

theorem ifThen_completes {word next : Token} {rest : List Token} {condition : Expr}
    {consequence : Statement} (kind : word.kind = .keyword .ifWord)
    (stands : Level.comparison.Stands tokens condition) (goesOn : next.kind = .keyword .thenWord)
    (form : StatementForm rest consequence) (complete : StatementCompletes rest consequence) :
    StatementCompletes (word :: (tokens ++ next :: rest))
      (.ifThen condition consequence word.pos) := by
  intro stream after passed stops
  obtain ⟨rfl, start, moved, passed⟩ := Stream.passes_cons.mp passed
  obtain ⟨between, next, tested, here, moved', passed⟩ := condition_tests stands goesOn passed
  have otherwise : after.current.kind ≠ .keyword .elseWord := stops.2 rfl
  have led : statement.Yields next consequence after := by
    rw [List.append_cons, ← List.cons_append] at stops
    exact complete next after passed ⟨stops.of_last form.ne_nil, fun _ => otherwise⟩
  rw [statement_round, yields_statementWith]
  simp only [kind]
  exact yields_conditionWith.mpr ⟨start, moved, condition, between, tested, here, next, moved',
    consequence, after, led, .inr ⟨otherwise, rfl, rfl⟩⟩

theorem ifElse_completes {word next other : Token} {rest last : List Token} {condition : Expr}
    {consequence alternative : Statement} (kind : word.kind = .keyword .ifWord)
    (stands : Level.comparison.Stands tokens condition) (goesOn : next.kind = .keyword .thenWord)
    (complete : StatementCompletes rest consequence) (nearest : consequence.endsOpen = false)
    (otherwise : other.kind = .keyword .elseWord) (form : StatementForm last alternative)
    (complete' : StatementCompletes last alternative) :
    StatementCompletes (word :: (tokens ++ next :: (rest ++ other :: last)))
      (.ifElse condition consequence alternative word.pos) := by
  intro stream after passed stops
  obtain ⟨rfl, start, moved, passed⟩ := Stream.passes_cons.mp passed
  obtain ⟨between, next, tested, here, moved', passed⟩ := condition_tests stands goesOn passed
  obtain ⟨behind, front, passed⟩ := Stream.passes_append.mp passed
  obtain ⟨rfl, final, moved'', passed⟩ := Stream.passes_cons.mp passed
  have led : statement.Yields next consequence behind := by
    refine complete next behind front ⟨.inr ?_, by simp [nearest]⟩
    exact Level.not_continues_of_kind (by simp [otherwise]) (by simp [otherwise])
  have led' : statement.Yields final alternative after := by
    rw [List.append_cons tokens, List.append_cons rest, ← List.append_assoc, ← List.cons_append]
      at stops
    exact complete' final after passed ⟨stops.of_last form.ne_nil, stops.2⟩
  rw [statement_round, yields_statementWith]
  simp only [kind]
  exact yields_conditionWith.mpr ⟨start, moved, condition, between, tested, here, next, moved',
    consequence, behind, led, .inl ⟨otherwise, final, moved'', alternative, led', rfl⟩⟩

theorem block_statement {body : Block} (complete : BlockCompletes tokens body) :
    StatementCompletes tokens (.block body) := by
  intro stream after passed _
  have braced := complete stream after passed
  have opens : stream.current.kind = .leftBrace := (yields_blockWith.mp braced).1
  rw [statement_round, yields_statementWith]
  simp only [opens]
  exact ⟨body, braced, rfl⟩

theorem print_completes {word : Token} {value : Expr} (kind : word.kind = .keyword .printWord)
    (stands : Level.comparison.Stands tokens value) :
    StatementCompletes (word :: tokens) (.print value word.pos) := by
  intro stream after passed stops
  obtain ⟨rfl, next, moved, passed⟩ := Stream.passes_cons.mp passed
  have valued := expression_completes stands passed (stops.of_stands [_] stands)
  rw [statement_round, yields_statementWith]
  simp only [kind]
  exact ⟨next, moved, value, valued, rfl⟩

theorem reset_completes {word : Token} (kind : word.kind = .keyword .resetWord) :
    StatementCompletes [word] (.reset word.pos) := by
  intro stream after passed _
  obtain ⟨rfl, next, moved, passed⟩ := Stream.passes_cons.mp passed
  obtain rfl := Stream.passes_nil.mp passed
  rw [statement_round, yields_statementWith]
  simp only [kind]
  exact ⟨moved, trivial⟩

theorem expression_statement {value : Expr} (stands : Level.comparison.Stands tokens value) :
    StatementCompletes tokens (.expression value) := by
  intro stream after passed stops
  have valued := expression_completes stands passed (stops.of_stands [] stands)
  have begins := level_begins .comparison valued
  rw [statement_round, yields_statementWith]
  split
  all_goals first
    | exact ⟨value, valued, rfl⟩
    | (next here => simp [here, Kind.beginsExpression, Kind.beginsPrimary] at begins)

end Completeness

mutual

theorem StatementForm.completes {tokens : List Token} {result : Statement} :
    StatementForm tokens result → StatementCompletes tokens result
  | .assign declares named assigns stands => assign_completes declares named assigns stands
  | .define defines named opens names closes block =>
      define_completes defines named opens names closes block.completes
  | .block block => block_statement block.completes
  | .ifThen kind stands goesOn form => ifThen_completes kind stands goesOn form form.completes
  | .ifElse kind stands goesOn form nearest otherwise form' =>
      ifElse_completes kind stands goesOn form.completes nearest otherwise form' form'.completes
  | .print kind stands => print_completes kind stands
  | .reset kind => reset_completes kind
  | .expression stands => expression_statement stands

theorem BlockForm.completes {tokens : List Token} {body : Block} :
    BlockForm tokens body → BlockCompletes tokens body
  | .braces opens separators body closes =>
      block_completes opens separators body.completes closes

theorem BodyForm.completes {tokens : List Token} {statements : List Statement} :
    BodyForm tokens statements → BodyCompletes tokens statements
  | .nil => body_nil
  | .cons form separators apart body =>
      body_cons form form.completes separators apart body.completes

end

theorem Stream.passes_all (current : Token) (ahead : List Token) (previous : Option Kind)
    (pos : Nat) :
    ∃ after, (Stream.mk current ahead (.ok pos) previous).Passes (current :: ahead) after ∧
      after.current.kind = .endOfInput := by
  induction ahead generalizing current previous with
  | nil => exact ⟨_, .step rfl (.here _), rfl⟩
  | cons token ahead ih =>
    obtain ⟨after, passed, ended⟩ := ih token (some current.kind)
    exact ⟨after, .step rfl passed, ended⟩

theorem Stream.exists_passes (tokens : List Token) :
    ∃ stream after : Stream, stream.Passes tokens after ∧ after.current.kind = .endOfInput := by
  cases tokens with
  | nil => exact ⟨⟨.atEnd 0, [], .ok 0, none⟩, _, .here _, rfl⟩
  | cons current ahead => exact ⟨_, Stream.passes_all current ahead none 0⟩

theorem program_complete {stream after : Stream} {tokens : List Token} {statements : List Statement}
    (passed : stream.Passes tokens after) (ended : after.current.kind = .endOfInput)
    (form : ProgramForm tokens statements) : program.Yields stream statements after := by
  obtain ⟨gap, rest, rfl, separators, body⟩ := form
  exact list_complete (.inr rfl) separators body.completes passed ended

/-- A program is parsed exactly if the tokens up to the end of input have the form of a program; the
statements are those of this form. No tokens have the form of two programs. -/
theorem program_yields_iff :
    (∀ (stream after : Stream) (statements : List Statement),
      program.Yields stream statements after ↔
        ∃ tokens, stream.Passes tokens after ∧ after.current.kind = .endOfInput ∧
          ProgramForm tokens statements) ∧
      ∀ (tokens : List Token) (statements others : List Statement),
        ProgramForm tokens statements → ProgramForm tokens others → statements = others := by
  constructor
  · intro stream after statements
    constructor
    · intro yields
      obtain ⟨tokens, passed, form, ended⟩ :=
        list_sound (fun later _ => statement_sound later) yields
      exact ⟨tokens, passed, ended, form⟩
    · rintro ⟨tokens, passed, ended, form⟩
      exact program_complete passed ended form
  · intro tokens statements others form form'
    obtain ⟨stream, after, passed, ended⟩ := Stream.exists_passes tokens
    have yields := program_complete passed ended form
    exact (yields.unique (program_complete passed ended form')).1

end Calculator

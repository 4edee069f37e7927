import Mathlib.Data.List.Chain
import Calculator.Proofs.Grammar.Soundness
import Calculator.Proofs.Number.Reading

/-!
The parsers of expressions accept what the grammar derives, and nothing else. Completeness goes by
the rules of the grammar: each rule carries over from the parsers of its parts to the parser of its
level.
-/

namespace Calculator

open Calculator.Parser

def Kind.beginsPrimary : Kind → Bool
  | .number | .decimal | .identifier | .leftParen => true
  | _ => false

def Kind.beginsExpression : Kind → Bool
  | .operator .sub => true
  | kind => kind.beginsPrimary

theorem Kind.beginsExpression_of_primary {kind : Kind} (begins : kind.beginsPrimary) :
    kind.beginsExpression := by
  unfold beginsExpression
  split
  · rfl
  · exact begins

/-- The parser of a level finds a tree in these tokens, if nothing behind them carries it further.
-/
def Level.Completes (level : Level) (tokens : List Token) (tree : Expr) : Prop :=
  (∀ token ∈ tokens, token.Reads) → ∀ stream after, stream.Passes tokens after →
    ¬ level.Continues after.current.kind → level.parser.Yields stream tree after

section Completeness

variable {level : Level} {stream after : Stream} {tree : Expr}

theorem primary_begins (yields : Parser.primary.Yields stream tree after) :
    stream.current.kind.beginsPrimary := by
  rw [primary_eq, yields_primaryWith] at yields
  cases here : stream.current.kind with
  | number => rfl
  | decimal => rfl
  | identifier => rfl
  | leftParen => rfl
  | _ => simp only [here] at yields

theorem call_begins (yields : Parser.call.Yields stream tree after) :
    stream.current.kind.beginsPrimary := by
  rw [call_eq, yields_callWith, ← primary_eq] at yields
  obtain ⟨target, between, started, _⟩ := yields
  exact primary_begins started

theorem unary_begins (yields : Parser.unary.Yields stream tree after) :
    stream.current.kind.beginsExpression := by
  rw [unary_round, yields_negationsRound] at yields
  rcases yields with ⟨minus, _⟩ | ⟨_, yields⟩
  · rw [minus]
    rfl
  · exact Kind.beginsExpression_of_primary (call_begins yields)

theorem links_none {operators : List BinaryOp} (members : ∀ op, op ∈ operators ↔ op.level = level)
    (stops : ¬ level.Continues stream.current.kind) :
    (within (links operators level.tighter.parser)).Yields stream [] stream := by
  rw [links_round operators (Level.takes _), yields_linksRound]
  refine .inr ⟨?_, rfl, rfl⟩
  intro op member here
  obtain rfl := (members op).mp member
  exact stops (.inr ⟨op, here, Nat.le_refl _⟩)

theorem yields_tighter (proper : level ≠ .primary)
    (yields : level.tighter.parser.Yields stream tree after)
    (stops : ¬ level.Continues after.current.kind) : level.parser.Yields stream tree after := by
  by_cases folds : level.Folds
  · obtain ⟨operators, parser, members⟩ := Level.parser_eq_chain folds
    rw [parser, chain, yields_bind]
    exact ⟨tree, after, yields, yields_bind.mpr
      ⟨[], after, links_none members stops, yields_pure.mpr ⟨rfl, rfl⟩⟩⟩
  · cases level with
    | power =>
      change Parser.power.Yields stream tree after
      rw [power_round, yields_powersRound]
      refine ⟨tree, after, yields, .inr ⟨?_, rfl, rfl⟩⟩
      intro here
      exact stops (.inr ⟨.pow, here, Nat.le_refl _⟩)
    | unary =>
      change Parser.unary.Yields stream tree after
      rw [unary_round, yields_negationsRound]
      refine .inr ⟨?_, yields⟩
      intro minus
      have begins := call_begins yields
      simp [minus, Kind.beginsPrimary] at begins
    | call =>
      change Parser.call.Yields stream tree after
      rw [call_eq, yields_callWith, ← primary_eq]
      refine ⟨tree, after, yields, .inr ⟨?_, rfl, rfl⟩⟩
      intro here
      exact stops (.inl ⟨here, proper⟩)
    | primary => exact absurd rfl proper
    | _ => exact absurd (by decide) folds

theorem tighter_completes {tokens : List Token} (proper : level ≠ .primary)
    (inner : level.tighter.Completes tokens tree) : level.Completes tokens tree := by
  intro reads stream after passed stops
  have stops' : ¬ level.tighter.Continues after.current.kind := fun goesOn => stops goesOn.looser
  exact yields_tighter proper (inner reads stream after passed stops') stops

theorem primary_completes {tokens : List Token} (primary : Level.primary.Completes tokens tree)
    (level : Level) : level.Completes tokens tree :=
  Level.climb (motive := fun level => level.Completes tokens tree) primary
    (fun _ proper inner => tighter_completes proper inner) level

theorem level_begins (level : Level) {tree : Expr} {stream after : Stream}
    (yields : level.parser.Yields stream tree after) : stream.current.kind.beginsExpression := by
  refine Level.climb (motive := fun level =>
    ∀ tree after, level.parser.Yields stream tree after → stream.current.kind.beginsExpression)
    ?_ ?_ level tree after yields
  · exact fun _ _ yields => Kind.beginsExpression_of_primary (primary_begins yields)
  · intro level proper inner tree after yields
    by_cases folds : level.Folds
    · obtain ⟨operators, parser, _⟩ := Level.parser_eq_chain folds
      rw [parser, chain, yields_bind] at yields
      obtain ⟨first, between, started, _⟩ := yields
      exact inner first between started
    · cases level with
      | power =>
        change Parser.power.Yields stream tree after at yields
        rw [power_round, yields_powersRound] at yields
        obtain ⟨first, between, started, _⟩ := yields
        exact unary_begins started
      | unary => exact unary_begins yields
      | call => exact Kind.beginsExpression_of_primary (call_begins yields)
      | primary => exact absurd rfl proper
      | _ => exact absurd (by decide) folds

theorem Linked.ahead {operand : Level → List Token → Expr → Prop} {tokens : List Token}
    {result : List Link} (linked : Linked operand level tokens result)
    (passed : stream.Passes tokens after) (stops : ¬ level.Continues after.current.kind) :
    ¬ level.tighter.Continues stream.current.kind := by
  cases linked with
  | nil =>
    obtain rfl := Stream.passes_nil.mp passed
    exact fun goesOn => stops goesOn.looser
  | cons operator own first others =>
    obtain ⟨rfl, _⟩ := Stream.passes_cons.mp passed
    rw [operator]
    exact Level.not_continues_operator own

theorem links_complete {operators : List BinaryOp} {tokens : List Token} {result : List Link}
    (members : ∀ op, op ∈ operators ↔ op.level = level)
    (linked : Linked Level.Completes level tokens result) (reads : ∀ token ∈ tokens, token.Reads)
    (passed : stream.Passes tokens after) (stops : ¬ level.Continues after.current.kind) :
    (within (links operators level.tighter.parser)).Yields stream result after := by
  induction linked generalizing stream with
  | nil =>
    obtain rfl := Stream.passes_nil.mp passed
    exact links_none members stops
  | @cons level word op tokens rest right more operator own first others ih =>
    subst own
    obtain ⟨rfl, next, moved, passed⟩ := Stream.passes_cons.mp passed
    obtain ⟨between, front, back⟩ := Stream.passes_append.mp passed
    simp only [List.forall_mem_cons, List.forall_mem_append] at reads
    rw [links_round operators (Level.takes _), yields_linksRound]
    exact .inl ⟨op, (members op).mpr rfl, operator, next, right, between, more, moved,
      first reads.2.1 next between front (others.ahead back stops),
      ih members reads.2.2 back stops, rfl⟩

theorem fold_completes {tokens rest : List Token} {first : Expr} {result : List Link}
    (folds : level.Folds) (operand : level.tighter.Completes tokens first)
    (others : Linked Level.Completes level rest result) (nonempty : result ≠ []) :
    level.Completes (tokens ++ rest) (.chain first result) := by
  intro reads stream after passed stops
  obtain ⟨operators, parser, members⟩ := Level.parser_eq_chain folds
  obtain ⟨between, front, back⟩ := Stream.passes_append.mp passed
  obtain ⟨reads, reads'⟩ := List.forall_mem_append.mp reads
  rw [parser, chain, yields_bind]
  refine ⟨first, between, operand reads stream between front (others.ahead back stops),
    yields_bind.mpr ⟨result, after, links_complete members others reads' back stops, ?_⟩⟩
  cases result with
  | nil => exact absurd rfl nonempty
  | cons link more => exact yields_pure.mpr ⟨rfl, rfl⟩

theorem power_completes {word : Token} {tokens rest : List Token} {base exponent : Expr}
    (left : Level.unary.Completes tokens base) (operator : word.kind = .operator .pow)
    (right : Level.power.Completes rest exponent) :
    Level.power.Completes (tokens ++ word :: rest) (.chain base [⟨.pow, exponent, word.pos⟩]) := by
  intro reads stream after passed stops
  obtain ⟨between, front, back⟩ := Stream.passes_append.mp passed
  obtain ⟨rfl, next, moved, back⟩ := Stream.passes_cons.mp back
  simp only [List.forall_mem_cons, List.forall_mem_append] at reads
  have stops' : ¬ Level.unary.Continues between.current.kind := by
    rw [operator]
    exact @Level.not_continues_operator .power .pow rfl
  change Parser.power.Yields stream _ after
  rw [power_round, yields_powersRound]
  exact ⟨base, between, left reads.1 stream between front stops', .inl ⟨operator, next, exponent,
    moved, right reads.2.2 next after back stops, rfl⟩⟩

theorem negate_completes {word : Token} {tokens : List Token} {operand : Expr}
    (operator : word.kind = .operator .sub) (inner : Level.unary.Completes tokens operand) :
    Level.unary.Completes (word :: tokens) (.negate operand word.pos) := by
  intro reads stream after passed stops
  obtain ⟨rfl, next, moved, passed⟩ := Stream.passes_cons.mp passed
  change Parser.unary.Yields stream _ after
  rw [unary_round, yields_negationsRound]
  exact .inl ⟨operator, next, operand, moved,
    inner (List.forall_mem_cons.mp reads).2 next after passed stops, rfl⟩

theorem word_completes {word : Token}
    (yields : ∀ stream after, stream.current = word → word.Reads → stream.advance = .ok after →
      Parser.primary.Yields stream tree after) : Level.primary.Completes [word] tree := by
  intro reads stream after passed _
  obtain ⟨here, next, moved, passed⟩ := Stream.passes_cons.mp passed
  obtain rfl := Stream.passes_nil.mp passed
  exact yields stream after here (reads word (List.mem_singleton.mpr rfl)) moved

theorem number_completes {word : Token} (kind : word.kind = .number) :
    Level.primary.Completes [word] (.number (.int word.intValue) false word.pos) := by
  refine word_completes ?_
  rintro stream after rfl reads moved
  obtain ⟨value, read⟩ := Option.isSome_iff_exists.mp (reads.1 kind)
  rw [primary_eq, yields_primaryWith]
  simp only [kind, Token.intValue, read, Option.getD_some]
  exact ⟨value, rfl, moved, rfl⟩

theorem decimal_completes {word : Token} (kind : word.kind = .decimal) :
    Level.primary.Completes [word] (.number (.float word.floatValue) false word.pos) := by
  refine word_completes ?_
  rintro stream after rfl reads moved
  obtain ⟨value, read⟩ := Option.isSome_iff_exists.mp (reads.2 kind)
  rw [primary_eq, yields_primaryWith]
  simp only [kind, Token.floatValue, read, Option.getD_some]
  exact ⟨value, rfl, moved, rfl⟩

theorem name_completes {word : Token} (kind : word.kind = .identifier) :
    Level.primary.Completes [word] (.name word.text word.pos) := by
  refine word_completes ?_
  rintro stream after rfl _ moved
  rw [primary_eq, yields_primaryWith]
  simp only [kind]
  exact ⟨moved, trivial⟩

theorem parens_completes {opening closing : Token} {tokens : List Token}
    (opens : opening.kind = .leftParen) (inner : Level.comparison.Completes tokens tree)
    (closes : closing.kind = .rightParen) :
    Level.primary.Completes (opening :: (tokens ++ [closing])) tree := by
  intro reads stream after passed _
  obtain ⟨rfl, next, moved, passed⟩ := Stream.passes_cons.mp passed
  obtain ⟨between, front, back⟩ := Stream.passes_append.mp passed
  obtain ⟨rfl, last, moved', back⟩ := Stream.passes_cons.mp back
  obtain rfl := Stream.passes_nil.mp back
  simp only [List.forall_mem_cons, List.forall_mem_append] at reads
  have stops : ¬ Level.comparison.Continues between.current.kind :=
    Level.not_continues_of_kind (by simp [closes]) (by simp [closes])
  change Parser.primary.Yields stream tree after
  rw [primary_eq, yields_primaryWith]
  simp only [opens]
  exact ⟨next, between, moved, inner reads.2.1 next between front stops, closes, moved'⟩

theorem Enclosed.completes {tokens : List Token} {name : Token} (callee : Enclosed tokens name) :
    Level.primary.Completes tokens (.name name.text name.pos) := by
  induction callee with
  | name kind => exact name_completes kind
  | parens opens _ closes ih => exact parens_completes opens (primary_completes ih _) closes

theorem call_completes {name opening closing : Token} {front tokens : List Token}
    {arguments : List Expr} (callee : Enclosed front name) (opens : opening.kind = .leftParen)
    (inner : CommaList Level.comparison.Completes tokens arguments)
    (closes : closing.kind = .rightParen) :
    Level.call.Completes (front ++ opening :: (tokens ++ [closing]))
      (.call name.text arguments name.pos) := by
  intro reads stream after passed stops
  obtain ⟨between, before, behind⟩ := Stream.passes_append.mp passed
  obtain ⟨rfl, next, moved, behind⟩ := Stream.passes_cons.mp behind
  simp only [List.forall_mem_cons, List.forall_mem_append] at reads
  have found : (commaSeparated expression .rightParen).Yields next arguments after := by
    refine commaSeparated_complete (by decide) (by decide) agree_expression ?_ ?_
      (CommaList.and_reads.mpr ⟨inner, reads.2.2.1⟩) closes behind
    · intro stream value after yields here
      have begins := level_begins .comparison yields
      simp [here, Kind.beginsExpression, Kind.beginsPrimary] at begins
    intro stream tokens value after ⟨complete, reads⟩ passed follows
    refine complete reads stream after passed (Level.not_continues_of_kind ?_ ?_)
    · rcases follows with follows | follows <;> simp [follows]
    · rcases follows with follows | follows <;> simp [follows]
  change Parser.call.Yields stream _ after
  rw [call_eq, yields_callWith, ← primary_eq]
  refine ⟨.name name.text name.pos, between, callee.completes reads.1 stream between before
    (Level.not_continues_primary _), .inl ⟨opens, name.text, name.pos, rfl, next, arguments, moved,
      found, ?_, rfl⟩⟩
  intro here
  exact stops (.inl ⟨here, by decide⟩)

theorem Derives.completes {tokens : List Token} (derives : Derives Enclosed level tokens tree) :
    level.Completes tokens tree :=
  derives.induct Level.Completes tighter_completes fold_completes power_completes negate_completes
    call_completes number_completes decimal_completes name_completes parens_completes

end Completeness

/-- A number as it is cut from a text: digits, or digits with a point in front of the last. -/
def Token.Spelled (token : Token) : Prop :=
  (token.kind = .number → token.text.toList ≠ [] ∧ ∀ c ∈ token.text.toList, c.isDigit) ∧
    (token.kind = .decimal → ∃ whole fraction, token.text.toList = whole ++ '.' :: fraction ∧
      fraction ≠ [] ∧ ∀ c ∈ whole ++ fraction, c.isDigit)

theorem Token.Spelled.reads_iff {token : Token} (spelled : token.Spelled) :
    token.Reads ↔
      (token.kind = .number →
        Nat.ofDigitChars 10 token.text.toList 0 < 9223372036854775808) := by
  constructor
  · intro reads kind
    obtain ⟨nonempty, digits⟩ := spelled.1 kind
    exact (readInt64?_digits nonempty digits).mp (reads.1 kind)
  · intro fits
    constructor
    · intro kind
      obtain ⟨nonempty, digits⟩ := spelled.1 kind
      exact (readInt64?_digits nonempty digits).mpr (fits kind)
    · intro kind
      obtain ⟨whole, fraction, text, nonempty, digits⟩ := spelled.2 kind
      rw [text]
      exact readFloat?_point nonempty digits

/-- The parser of a level yields a tree exactly if the tokens that it takes derive this tree, their
literals can be read, and the next token is neither a parenthesis nor an operator with which the
level would go on. For literals as they are cut from a text the second condition is that the
integers fit in 64 bits. -/
theorem level_yields_iff :
    (∀ (level : Level) (stream after : Stream) (tree : Expr),
      level.parser.Yields stream tree after ↔
        ∃ tokens, stream.Passes tokens after ∧ Derives Enclosed level tokens tree ∧
          (∀ token ∈ tokens, token.Reads) ∧ ¬ level.Continues after.current.kind) ∧
      ∀ token : Token, token.Spelled →
        (token.Reads ↔
          (token.kind = .number →
            Nat.ofDigitChars 10 token.text.toList 0 < 9223372036854775808)) := by
  refine ⟨?_, fun token spelled => spelled.reads_iff⟩
  intro level stream after tree
  constructor
  · intro yields
    obtain ⟨tokens, passed, ⟨derives, reads⟩, stops⟩ := level.sound stream tree after yields
    exact ⟨tokens, passed, derives, reads, stops⟩
  · rintro ⟨tokens, passed, derives, reads, stops⟩
    exact derives.completes reads stream after passed stops

section EnclosedCallee

def enclosedCall : Stream :=
  ⟨⟨.leftParen, "(", 0⟩, [⟨.identifier, "f", 1⟩, ⟨.rightParen, ")", 2⟩, ⟨.leftParen, "(", 3⟩,
    ⟨.rightParen, ")", 4⟩], .ok 5, none⟩

def enclosedCallEnd : Stream := ⟨.atEnd 5, [], .ok 5, some .rightParen⟩

def Apart (left right : Token) : Prop := ¬ (left.kind = .rightParen ∧ right.kind = .leftParen)

theorem apart_cons {word : Token} {tokens : List Token} (other : word.kind ≠ .rightParen)
    (chain : tokens.IsChain Apart) : (word :: tokens).IsChain Apart :=
  List.isChain_cons.mpr ⟨fun _ _ ⟨closes, _⟩ => other closes, chain⟩

theorem apart_append {word : Token} {tokens rest : List Token} (other : word.kind ≠ .leftParen)
    (front : tokens.IsChain Apart) (back : (word :: rest).IsChain Apart) :
    (tokens ++ word :: rest).IsChain Apart := by
  refine List.isChain_append.mpr ⟨front, back, ?_⟩
  rintro left _ right ⟨⟩ ⟨_, opens⟩
  exact other opens

/-- Where only a name alone may be called, no parenthesis opens right behind one that closes. -/
theorem Derives.apart {level : Level} {tokens : List Token} {tree : Expr}
    (derives : Derives Plain level tokens tree) : tokens.IsChain Apart := by
  refine derives.induct (fun _ tokens _ => tokens.IsChain Apart)
    ?tighter ?fold ?power ?negate ?call ?number ?decimal ?name ?parens
  case tighter => exact fun _ inner => inner
  case fold =>
    intro level tokens rest first links folds front linked nonempty
    clear folds nonempty
    induction linked generalizing tokens with
    | nil => rwa [List.append_nil]
    | cons operator _ right _ ih =>
      exact apart_append (by simp [operator]) front (apart_cons (by simp [operator]) (ih right))
  case power =>
    intro word tokens rest base exponent left operator right
    exact apart_append (by simp [operator]) left (apart_cons (by simp [operator]) right)
  case negate =>
    intro word tokens operand operator inner
    exact apart_cons (by simp [operator]) inner
  case call =>
    rintro name opening closing _ tokens arguments ⟨kind⟩ opens inner closes
    have list : tokens.IsChain Apart := by
      induction inner with
      | nil => exact .nil
      | one first => exact first
      | more first separator _ _ ih =>
        exact apart_append (by simp [separator]) first (apart_cons (by simp [separator]) ih)
    exact apart_cons (by simp [kind]) (apart_cons (by simp [opens])
      (apart_append (by simp [closes]) list (.singleton closing)))
  case parens =>
    intro opening closing tokens tree opens inner closes
    exact apart_cons (by simp [opens]) (apart_append (by simp [closes]) inner (.singleton closing))
  all_goals
    intros
    exact .singleton _

theorem enclosed_callee_called :
    Level.call.parser.Yields enclosedCall (.call "f" [] 1) enclosedCallEnd ∧
      ∀ tokens, enclosedCall.Passes tokens enclosedCallEnd →
        ∀ level tree, ¬ Derives Plain level tokens tree := by
  refine ⟨rfl, ?_⟩
  intro tokens passed level tree derives
  have chain := derives.apart
  rcases passed with _ | ⟨⟨⟩, _ | ⟨⟨⟩, _ | ⟨⟨⟩, _ | ⟨⟨⟩, passed⟩⟩⟩⟩
  simp [Apart] at chain

end EnclosedCallee

end Calculator

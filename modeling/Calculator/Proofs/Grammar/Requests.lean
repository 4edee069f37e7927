import Calculator.Proofs.Grammar.Feed

/-!
Requests for tokens. In whatever order parsers are carried out on a feed, and whatever fails, the
tokens that have been consumed and the current one are the first that the lexer yields. A request that
is refused changes none of them, and is refused again as often as it is repeated.
-/

namespace Calculator

open Calculator.Parser

theorem Lexer.draws_succ (lexer : Lexer) (n : Nat) (scan : Scan) :
    lexer.draws (n + 1) scan =
      ((lexer.draws n scan).1 ++ [(lexer.next (lexer.draws n scan).2).1],
        (lexer.next (lexer.draws n scan).2).2) := by
  induction n generalizing scan with
  | zero => rfl
  | succ n ih =>
    have step : lexer.draws (n + 1 + 1) scan =
        ((lexer.next scan).1 :: (lexer.draws (n + 1) (lexer.next scan).2).1,
          (lexer.draws (n + 1) (lexer.next scan).2).2) := rfl
    rw [step, ih]
    rfl

namespace Feed

/-- The states of a feed that any parsers can lead to, the failing ones included. -/
inductive Reached (lexer : Lexer) (source : String) : Feed → Prop
  | opened {feed : Feed} (opens : start lexer source = .ok feed) : Reached lexer source feed
  | carried {α : Type} {parser : Parser α} {feed after : Feed} {result : Except ParseError α}
      (reached : Reached lexer source feed) (carries : parser.Carries feed result after) :
      Reached lexer source after

/-- The consumed tokens and the current one are those that the lexer yields at first, and the lexer
stands behind them but for blanks. -/
structure InStep (lexer : Lexer) (source : String) (feed : Feed) : Prop where
  unchanged : feed.lexer = lexer
  tokens : (lexer.draws (feed.taken.length + 1) (.start source)).1 =
    (feed.taken ++ [feed.current]).map .ok
  previous : feed.previous = feed.taken.getLast?.map Token.kind
  place : lexer.skip feed.scan =
    lexer.skip (lexer.draws (feed.taken.length + 1) (.start source)).2

/-- Two states with the same tokens. The lexer may have passed blanks. -/
structure SameTokens (feed after : Feed) : Prop where
  current : after.current = feed.current
  previous : after.previous = feed.previous
  taken : after.taken = feed.taken

variable {feed between after : Feed} {lexer : Lexer} {source : String}

theorem SameTokens.trans (first : feed.SameTokens between) (later : between.SameTokens after) :
    feed.SameTokens after where
  current := later.current.trans first.current
  previous := later.previous.trans first.previous
  taken := later.taken.trans first.taken

theorem inStep_start (opens : start lexer source = .ok feed) : feed.InStep lexer source := by
  rw [start] at opens
  cases next : lexer.next (.start source) with
  | mk found after =>
    rw [next] at opens
    cases found with
    | error error => cases opens
    | ok token =>
      cases opens
      have drawn : lexer.draws 1 (.start source) = ([.ok token], after) := by
        rw [Lexer.draws, next]
        rfl
      exact ⟨rfl, congrArg Prod.fst drawn, rfl, by rw [List.length_nil, drawn]⟩

theorem InStep.advance (inStep : feed.InStep lexer source) :
    feed.advance.2.InStep lexer source := by
  rcases inStep with ⟨rfl, tokens, previous, place⟩
  cases next : feed.lexer.next feed.scan with
  | mk found after =>
    cases found with
    | error error =>
      rw [advance_error next]
      refine ⟨rfl, tokens, previous, ?_⟩
      rw [Lexer.stays_of_error next, Lexer.skip_skip]
      exact place
    | ok token =>
      -- The lexer may have skipped blanks since its last token, which makes no difference.
      have again : feed.lexer.next
          (feed.lexer.draws (feed.taken.length + 1) (.start source)).2 = (.ok token, after) := by
        rw [← Lexer.next_skip, ← place, Lexer.next_skip, next]
      have drawn := feed.lexer.draws_succ (feed.taken.length + 1) (.start source)
      rw [again, tokens] at drawn
      rw [advance_ok next]
      refine ⟨rfl, ?_, ?_, ?_⟩
      · simp only [List.length_append, List.length_singleton, drawn, List.map_append,
          List.map_singleton]
      · rw [List.getLast?_concat]
        rfl
      · simp only [List.length_append, List.length_singleton, drawn]

theorem Reached.inStep (reached : Reached lexer source feed) : feed.InStep lexer source := by
  induction reached with
  | opened opens => exact inStep_start opens
  | carried _ carries ih => exact carries.keeps (fun _ => InStep.advance) ih

end Feed

namespace Parser

variable {feed after last : Feed} {result : Except ParseError Token} {kinds : List Kind}

theorem carries_advance :
    Parser.advance.Carries feed result after ↔
      result = feed.advance.1.mapError .lexical ∧ after = feed.advance.2 := by
  constructor
  · exact fun carries => carries.unique (.advance feed)
  · rintro ⟨rfl, rfl⟩
    exact .advance feed

theorem expectOneOf_wanted (wanted : feed.current.kind ∈ kinds)
    (carries : Parser.advance.Carries feed result after) :
    (expectOneOf kinds).Carries feed result after := by
  refine .goOn (carries_kind feed) ?_
  rw [if_pos wanted]
  exact carries

theorem expectOneOf_unwanted (unwanted : feed.current.kind ∉ kinds) :
    (expectOneOf kinds).Carries feed
      (.error (.unexpected (.anyOf kinds) feed.current.kind feed.current.pos)) feed := by
  refine .goOn (carries_kind feed) ?_
  rw [if_neg unwanted]
  exact carries_unexpected _ feed

theorem carries_expectOneOf :
    (expectOneOf kinds).Carries feed result after ↔
      if feed.current.kind ∈ kinds then Parser.advance.Carries feed result after
      else result = .error (.unexpected (.anyOf kinds) feed.current.kind feed.current.pos) ∧
        after = feed := by
  split
  · next wanted =>
    constructor
    · intro carries
      exact carries_advance.mpr (carries.unique (expectOneOf_wanted wanted (.advance feed)))
    · exact expectOneOf_wanted wanted
  · next unwanted =>
    constructor
    · exact fun carries => carries.unique (expectOneOf_unwanted unwanted)
    · rintro ⟨rfl, rfl⟩
      exact expectOneOf_unwanted unwanted

inductive Request : Parser Token → Prop
  | next : Request advance
  | ofKind (wanted : Kind) : Request (expect wanted)
  | ofKinds (kinds : List Kind) : Request (expectOneOf kinds)

/-- A parser that is carried out again and again. -/
inductive Repeats {α : Type} (parser : Parser α) : Feed → List (Except ParseError α) → Feed → Prop
  | never (feed : Feed) : Repeats parser feed [] feed
  | again {feed between after : Feed} {result : Except ParseError α}
      {results : List (Except ParseError α)} (carries : parser.Carries feed result between)
      (later : Repeats parser between results after) :
      Repeats parser feed (result :: results) after

variable {request : Parser Token} {error : ParseError}

theorem Request.returns (asks : Request request) (feed : Feed) :
    ∃ result after, request.Carries feed result after := by
  have oneOf : ∀ kinds, ∃ result after, (expectOneOf kinds).Carries feed result after := by
    intro kinds
    by_cases wanted : feed.current.kind ∈ kinds
    · exact ⟨_, _, expectOneOf_wanted wanted (.advance feed)⟩
    · exact ⟨_, _, expectOneOf_unwanted wanted⟩
  cases asks with
  | next => exact ⟨_, _, .advance feed⟩
  | ofKind wanted => exact oneOf [wanted]
  | ofKinds kinds => exact oneOf kinds

theorem advance_refused (refused : Parser.advance.Carries feed (.error error) after) :
    feed.SameTokens after ∧
      ∀ result last, Parser.advance.Carries after result last → result = .error error := by
  rcases carries_advance.mp refused with ⟨failed, rfl⟩
  cases next : feed.lexer.next feed.scan with
  | mk found place =>
    cases found with
    | ok token =>
      rw [Feed.advance_ok next] at failed
      cases failed
    | error fault =>
      rw [Feed.advance_error next] at failed ⊢
      obtain rfl : error = .lexical fault := Except.error.inj failed
      have again : feed.lexer.next place = (.error fault, feed.lexer.skip place) := by
        rw [Lexer.stays_of_error next, Lexer.next_skip, Lexer.skip_skip, next,
          Lexer.stays_of_error next]
      refine ⟨⟨rfl, rfl, rfl⟩, ?_⟩
      intro result last carries
      rw [(carries_advance.mp carries).1, Feed.advance, again]
      rfl

theorem expectOneOf_refused (refused : (expectOneOf kinds).Carries feed (.error error) after) :
    feed.SameTokens after ∧
      ∀ result last, (expectOneOf kinds).Carries after result last → result = .error error := by
  rw [carries_expectOneOf] at refused
  split at refused
  · next wanted =>
    rcases advance_refused refused with ⟨same, again⟩
    refine ⟨same, fun result last carries => ?_⟩
    rw [carries_expectOneOf, same.current, if_pos wanted] at carries
    exact again result last carries
  · next unwanted =>
    rcases refused with ⟨unexpected, rfl⟩
    refine ⟨⟨rfl, rfl, rfl⟩, fun result last carries => ?_⟩
    rw [carries_expectOneOf, if_neg unwanted] at carries
    rw [carries.1, unexpected]

theorem Request.refused (asks : Request request) (refused : request.Carries feed (.error error) after) :
    feed.SameTokens after ∧
      ∀ result last, request.Carries after result last → result = .error error := by
  cases asks with
  | next => exact advance_refused refused
  | ofKind wanted => exact expectOneOf_refused refused
  | ofKinds kinds => exact expectOneOf_refused refused

theorem Request.refused_always (asks : Request request)
    (refused : request.Carries feed (.error error) after)
    {results : List (Except ParseError Token)} (repeats : request.Repeats after results last) :
    (∀ result ∈ results, result = .error error) ∧ feed.SameTokens last := by
  -- Each repetition finds the tokens that the first one has left.
  induction repeats generalizing feed with
  | never => exact ⟨fun _ member => absurd member List.not_mem_nil, (asks.refused refused).1⟩
  | again carries later ih =>
    rcases asks.refused refused with ⟨same, again⟩
    obtain rfl := again _ _ carries
    rcases ih carries with ⟨errors, same'⟩
    exact ⟨List.forall_mem_cons.mpr ⟨rfl, errors⟩, same.trans same'⟩

end Parser

structure Feed.Orderly (lexer : Lexer) (source : String) (feed : Feed) : Prop where
  inStep : feed.InStep lexer source
  agrees : ∀ {α : Type} (parser : Parser α) result after, parser.Carries feed result after →
    parser.run feed.stream = (result, after.stream)
  returns : ∀ request, Request request → ∃ result after, request.Carries feed result after
  unasked : ∀ kinds, feed.current.kind ∉ kinds → ∀ result after,
    (expectOneOf kinds).Carries feed result after →
      result = .error (.unexpected (.anyOf kinds) feed.current.kind feed.current.pos) ∧ after = feed
  refused : ∀ request, Request request → ∀ error after, request.Carries feed (.error error) after →
    feed.SameTokens after ∧ ∀ results last, request.Repeats after results last →
      (∀ result ∈ results, result = .error error) ∧ feed.SameTokens last

/-- A request that is refused or fails leaves the tokens as they were and goes on to fail in the same
way. No token is skipped or repeated, whatever has failed before. -/
theorem reached_feed_orderly (lexer : Lexer) (source : String) (feed : Feed)
    (reached : feed.Reached lexer source) : feed.Orderly lexer source where
  inStep := reached.inStep
  agrees parser result after carries := carries.run_eq
  returns request asks := asks.returns feed
  unasked kinds unwanted result after carries := by
    rw [carries_expectOneOf, if_neg unwanted] at carries
    exact carries
  refused request asks error after refused := by
    refine ⟨(asks.refused refused).1, fun results last repeats => ?_⟩
    exact asks.refused_always refused repeats

def feedBeforeNoise : Feed := ⟨Lexer.standard true, ⟨['!'], 3⟩, ⟨.identifier, "a", 0⟩, none, [], 2⟩

theorem feedBeforeNoise_orderly :
    feedBeforeNoise.Reached (Lexer.standard true) "a  !" ∧
      feedBeforeNoise.Orderly (Lexer.standard true) "a  !" := by
  let first : Feed :=
    ⟨Lexer.standard true, ⟨[' ', ' ', '!'], 1⟩, ⟨.identifier, "a", 0⟩, none, [], 1⟩
  have opens : Feed.start (Lexer.standard true) "a  !" = .ok first := by decide +kernel
  have fails : first.advance.2 = feedBeforeNoise := by decide +kernel
  have reached : feedBeforeNoise.Reached (Lexer.standard true) "a  !" := by
    rw [← fails]
    exact .carried (.opened opens) (.advance first)
  exact ⟨reached, reached_feed_orderly _ _ _ reached⟩

end Calculator

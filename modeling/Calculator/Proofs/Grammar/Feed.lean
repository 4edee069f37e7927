import Calculator.Proofs.Grammar.Yields
import Calculator.Proofs.Lexer.Splicing

/-!
Tokens that are pulled. A feed asks its lexer for one token at a time and never has more than the
current one. A parser is carried out on it step by step, and does there what it does on the stream
of all tokens that are left.
-/

namespace Calculator

/-- A lexer at a place of its source, the token that was cut last and is the next to be consumed, and
the kind of the token consumed last. What has been consumed, and how often the lexer has been asked,
is kept as well; nothing depends on it. -/
structure Feed where
  lexer : Lexer
  scan : Scan
  current : Token
  previous : Option Kind
  taken : List Token
  asked : Nat
  deriving DecidableEq

namespace Feed

def start (lexer : Lexer) (source : String) : Except LexError Feed :=
  match lexer.next (.start source) with
  | (.ok token, after) => .ok ⟨lexer, after, token, none, [], 1⟩
  | (.error error, _) => .error error

def advance (feed : Feed) : Except LexError Token × Feed :=
  match feed.lexer.next feed.scan with
  | (.ok token, after) =>
      (.ok feed.current,
        { feed with
          scan := after, current := token, previous := some feed.current.kind,
          taken := feed.taken ++ [feed.current], asked := feed.asked + 1 })
  | (.error error, after) => (.error error, { feed with scan := after, asked := feed.asked + 1 })

def stream (feed : Feed) : Stream :=
  ⟨feed.current, (feed.lexer.tokens feed.scan).1, (feed.lexer.tokens feed.scan).2, feed.previous⟩

end Feed

section Lexing

variable {lexer : Lexer} {scan after : Scan}

namespace Lexer

theorem tokens_skip (lexer : Lexer) (scan : Scan) :
    lexer.tokens (lexer.skip scan) = lexer.tokens scan := by
  rw [tokens_of_next, tokens_of_next lexer scan, skip_skip, endPos_skip, next_skip]

theorem next_of_nothing (nothing : (lexer.skip scan).rest = []) :
    lexer.next scan = (.ok (.atEnd scan.endPos), lexer.skip scan) := by
  rw [next, cut?, if_pos (List.isEmpty_iff.mpr nothing)]

theorem stays_of_error {error : LexError} (failed : lexer.next scan = (.error error, after)) :
    after = lexer.skip scan := by
  rw [next] at failed
  split at failed
  · cases failed
    rfl
  · cases failed
  · cases failed

theorem tokens_of_error {error : LexError} (failed : lexer.next scan = (.error error, after)) :
    lexer.tokens scan = ([], .error error) ∧ lexer.tokens after = ([], .error error) := by
  have more : (lexer.skip scan).rest ≠ [] := by
    intro nothing
    rw [next_of_nothing nothing] at failed
    cases failed
  have cut : lexer.tokens scan = ([], .error error) := by
    rw [tokens_of_next, if_neg more, failed]
  refine ⟨cut, ?_⟩
  rw [stays_of_error failed, tokens_skip]
  exact cut

theorem tokens_of_ok {token : Token} (found : lexer.next scan = (.ok token, after)) :
    lexer.tokens scan = (token :: (lexer.tokens after).1, (lexer.tokens after).2) ∨
      ∃ pos, token = .atEnd pos ∧ lexer.tokens scan = ([], .ok pos) ∧
        lexer.tokens after = ([], .ok pos) := by
  by_cases nothing : (lexer.skip scan).rest = []
  · rw [next_of_nothing nothing] at found
    cases found
    have cut : lexer.tokens scan = ([], .ok scan.endPos) := by
      rw [tokens_of_next, if_pos nothing]
    exact .inr ⟨_, rfl, cut, (tokens_skip lexer scan).trans cut⟩
  · left
    rw [tokens_of_next, if_neg nothing, found]

end Lexer

end Lexing

namespace Feed

variable {feed after : Feed} {lexer : Lexer} {source : String}

theorem advance_ok {token : Token} {after : Scan}
    (found : feed.lexer.next feed.scan = (.ok token, after)) :
    feed.advance = (.ok feed.current,
      { feed with
        scan := after, current := token, previous := some feed.current.kind,
        taken := feed.taken ++ [feed.current], asked := feed.asked + 1 }) := by
  rw [advance, found]

theorem advance_error {error : LexError} {after : Scan}
    (failed : feed.lexer.next feed.scan = (.error error, after)) :
    feed.advance = (.error error, { feed with scan := after, asked := feed.asked + 1 }) := by
  rw [advance, failed]

theorem run_advance (feed : Feed) :
    Parser.advance.run feed.stream =
      (feed.advance.1.mapError ParseError.lexical, feed.advance.2.stream) := by
  cases next : feed.lexer.next feed.scan with
  | mk result after =>
    cases result with
    | error error =>
      rcases Lexer.tokens_of_error next with ⟨here, there⟩
      rw [advance_error next]
      simp only [Parser.run, Parser.advance, Stream.advance, stream, here, there]
      rfl
    | ok token =>
      rw [advance_ok next]
      rcases Lexer.tokens_of_ok next with here | ⟨pos, rfl, here, there⟩
      · simp only [Parser.run, Parser.advance, Stream.advance, stream, here]
        rfl
      · simp only [Parser.run, Parser.advance, Stream.advance, stream, here, there]
        rfl

theorem ofSource_eq (lexer : Lexer) (source : String) :
    Stream.ofSource lexer source = (start lexer source).map stream := by
  rw [Stream.ofSource, start]
  cases next : lexer.next (.start source) with
  | mk result after =>
    cases result with
    | error error =>
      rw [(Lexer.tokens_of_error next).1]
      rfl
    | ok token =>
      rcases Lexer.tokens_of_ok next with here | ⟨pos, rfl, here, there⟩
      · rw [here]
        rfl
      · rw [here]
        simp only [Except.map, stream, there]
        rfl

end Feed

namespace Feed

/-- The tokens that a feed comes to when it moves on. -/
inductive Pulls : Feed → List Token → Feed → Prop
  | here (feed : Feed) : Pulls feed [] feed
  | next {feed next after : Feed} {tokens : List Token}
      (moved : feed.advance = (.ok feed.current, next)) (later : Pulls next tokens after) :
      Pulls feed (next.current :: tokens) after

variable {feed between after after' : Feed} {tokens tokens' : List Token}

theorem Pulls.append (first : feed.Pulls tokens between) (later : between.Pulls tokens' after) :
    feed.Pulls (tokens ++ tokens') after := by
  induction first with
  | here => exact later
  | next moved _ ih => exact .next moved (ih later)

theorem Pulls.nil (pulls : feed.Pulls [] after) : feed = after := by
  cases pulls
  rfl

theorem Pulls.stops {error : LexError} {last : Feed} (pulls : feed.Pulls tokens after)
    (failed : feed.advance = (.error error, last)) : tokens = [] ∧ feed = after := by
  cases pulls with
  | here => exact ⟨rfl, rfl⟩
  | next moved later =>
    rw [failed] at moved
    cases moved

theorem Pulls.compare (pulls : feed.Pulls tokens after) (pulls' : feed.Pulls tokens' after') :
    (∃ more, tokens' = tokens ++ more ∧ after.Pulls more after') ∨
      ∃ more, tokens = tokens' ++ more ∧ after'.Pulls more after := by
  induction pulls generalizing tokens' with
  | here => exact .inl ⟨tokens', rfl, pulls'⟩
  | @next feed next after tokens moved later ih =>
    cases pulls' with
    | here => exact .inr ⟨_, rfl, .next moved later⟩
    | @next _ next' _ tokens' moved' later' =>
      obtain rfl : next = next' := (Prod.mk.inj (moved.symm.trans moved')).2
      rcases ih later' with ⟨more, rfl, last⟩ | ⟨more, rfl, last⟩
      · exact .inl ⟨more, rfl, last⟩
      · exact .inr ⟨more, rfl, last⟩

theorem Pulls.stops_once {between' last last' : Feed} {error error' : LexError}
    (pulls : feed.Pulls tokens between) (pulls' : feed.Pulls tokens' between')
    (failed : between.advance = (.error error, last))
    (failed' : between'.advance = (.error error', last')) : error = error' ∧ last = last' := by
  have here : between = between' := by
    rcases pulls.compare pulls' with ⟨more, _, later⟩ | ⟨more, _, later⟩
    · exact (later.stops failed).2
    · exact (later.stops failed').2.symm
  subst here
  rw [failed] at failed'
  cases failed'
  exact ⟨rfl, rfl⟩

end Feed

namespace Parser

variable {α β : Type} {parser : Parser α} {feed between after : Feed}
  {result : Except ParseError α}

/-- Carrying out a parser on a feed: it reads what is there, has the feed move on, or goes on with
another parser. -/
inductive Carries : {α : Type} → Parser α → Feed → Except ParseError α → Feed → Prop
  | pure {α : Type} (value : α) (feed : Feed) : Carries (pure value) feed (.ok value) feed
  | fail {α : Type} (error : ParseError) (feed : Feed) :
      Carries (fail error : Parser α) feed (.error error) feed
  | current (feed : Feed) : Carries current feed (.ok feed.current) feed
  | previous (feed : Feed) : Carries previous feed (.ok feed.previous) feed
  | advance (feed : Feed) :
      Carries advance feed (feed.advance.1.mapError .lexical) feed.advance.2
  | goOn {α β : Type} {parser : Parser α} {next : α → Parser β} {feed between after : Feed}
      {value : α} {result : Except ParseError β} (first : Carries parser feed (.ok value) between)
      (rest : Carries (next value) between result after) :
      Carries (parser >>= next) feed result after
  | stop {α β : Type} {parser : Parser α} {next : α → Parser β} {feed after : Feed}
      {error : ParseError} (first : Carries parser feed (.error error) after) :
      Carries (parser >>= next) feed (.error error) after

theorem carries_kind (feed : Feed) : kind.Carries feed (.ok feed.current.kind) feed := by
  have reads : (Parser.current >>= fun token => (Pure.pure token.kind : Parser Kind)).Carries feed
      (.ok feed.current.kind) feed := .goOn (.current feed) (.pure _ feed)
  exact reads

theorem carries_unexpected (expected : Expected) (feed : Feed) :
    (unexpected expected : Parser α).Carries feed
      (.error (.unexpected expected feed.current.kind feed.current.pos)) feed := by
  have fails : (Parser.current >>= fun token =>
      (Parser.fail (.unexpected expected token.kind token.pos) : Parser α)).Carries feed
      (.error (.unexpected expected feed.current.kind feed.current.pos)) feed :=
    .goOn (.current feed) (.fail _ feed)
  exact fails

theorem Carries.run_eq (carries : parser.Carries feed result after) :
    parser.run feed.stream = (result, after.stream) := by
  induction carries with
  | pure value feed => rfl
  | fail error feed => rfl
  | current feed => rfl
  | previous feed => rfl
  | advance feed => exact feed.run_advance
  | goOn first rest ih ih' =>
    rw [run_bind, ih]
    exact ih'
  | stop first ih => rw [run_bind, ih]

/-- What each request for a token keeps is kept throughout. -/
theorem Carries.keeps {motive : Feed → Prop} (step : ∀ feed, motive feed → motive feed.advance.2)
    (carries : parser.Carries feed result after) (begins : motive feed) : motive after := by
  induction carries with
  | pure | fail | current | previous => exact begins
  | advance feed => exact step feed begins
  | goOn first rest ih ih' => exact ih' (ih begins)
  | stop first ih => exact ih begins

/-- What a run shows of a parser. On every stream that begins with the tokens that were drawn in it,
the parser does the same and sees nothing of what is behind them; if the lexer has failed, the parser
fails on every stream that ends there, with the error of that stream. -/
inductive Shows (parser : Parser α) (feed : Feed) : Except ParseError α → Feed → Prop
  | quiet {drawn : List Token} {after : Feed} {result : Except ParseError α}
      (pulls : feed.Pulls drawn after)
      (same : ∀ behind ending, parser.run ⟨feed.current, drawn ++ behind, ending, feed.previous⟩ =
        (result, ⟨after.current, behind, ending, after.previous⟩)) :
      Shows parser feed result after
  | stuck {drawn : List Token} {between after : Feed} {error : LexError}
      (pulls : feed.Pulls drawn between) (failed : between.advance = (.error error, after))
      (same : ∀ other, parser.run ⟨feed.current, drawn, .error other, feed.previous⟩ =
        (.error (.lexical other), ⟨between.current, [], .error other, between.previous⟩)) :
      Shows parser feed (.error (.lexical error)) after

theorem shows_still {parser : Parser α}
    (same : ∀ ahead ending, parser.run ⟨feed.current, ahead, ending, feed.previous⟩ =
      (result, ⟨feed.current, ahead, ending, feed.previous⟩)) : Shows parser feed result feed :=
  .quiet (.here feed) same

theorem shows_advance (feed : Feed) :
    Shows advance feed (feed.advance.1.mapError .lexical) feed.advance.2 := by
  cases next : feed.lexer.next feed.scan with
  | mk found after =>
    cases found with
    | error error =>
      have failed := Feed.advance_error next
      rw [failed]
      exact .stuck (.here feed) failed fun _ => rfl
    | ok token =>
      have moved := Feed.advance_ok next
      rw [moved]
      exact .quiet (.next moved (.here _)) fun _ _ => rfl

theorem Shows.bind {parser : Parser α} {next : α → Parser β} {value : α}
    {result : Except ParseError β} (first : Shows parser feed (.ok value) between)
    (rest : Shows (next value) between result after) :
    Shows (parser >>= next) feed result after := by
  rcases first with ⟨pulls, same⟩
  rcases rest with ⟨pulls', same'⟩ | ⟨pulls', failed, same'⟩
  · refine .quiet (pulls.append pulls') fun behind ending => ?_
    rw [List.append_assoc, run_bind, same]
    exact same' behind ending
  · refine .stuck (pulls.append pulls') failed fun other => ?_
    rw [run_bind, same]
    exact same' other

theorem Shows.bind_error {parser : Parser α} {next : α → Parser β} {error : ParseError}
    (first : Shows parser feed (.error error) after) :
    Shows (parser >>= next) feed (.error error) after := by
  rcases first with ⟨pulls, same⟩ | ⟨pulls, failed, same⟩
  · refine .quiet pulls fun behind ending => ?_
    rw [run_bind, same]
  · refine .stuck pulls failed fun other => ?_
    rw [run_bind, same]

theorem Carries.shows (carries : parser.Carries feed result after) :
    Shows parser feed result after := by
  induction carries with
  | pure | fail | current | previous => exact shows_still fun _ _ => rfl
  | advance feed => exact shows_advance feed
  | goOn first rest ih ih' => exact ih.bind ih'
  | stop first ih => exact ih.bind_error

section Pairs

variable {drawn drawn' : List Token} {result' : Except ParseError α} {after' last : Feed}

theorem quiet_unique (pulls : feed.Pulls drawn after) (pulls' : feed.Pulls drawn' after')
    (same : ∀ behind ending, parser.run ⟨feed.current, drawn ++ behind, ending, feed.previous⟩ =
      (result, ⟨after.current, behind, ending, after.previous⟩))
    (same' : ∀ behind ending, parser.run ⟨feed.current, drawn' ++ behind, ending, feed.previous⟩ =
      (result', ⟨after'.current, behind, ending, after'.previous⟩)) :
    result = result' ∧ after = after' := by
  have both : ∃ behind behind', drawn ++ behind = drawn' ++ behind' ∧
      (behind = behind' → after = after') := by
    rcases pulls.compare pulls' with ⟨more, rfl, later⟩ | ⟨more, rfl, later⟩
    · refine ⟨more, [], (List.append_nil _).symm, ?_⟩
      rintro rfl
      exact later.nil
    · refine ⟨[], more, List.append_nil _, ?_⟩
      rintro rfl
      exact later.nil.symm
  rcases both with ⟨behind, behind', text, reached⟩
  have first := same behind (.ok 0)
  rw [text, same' behind' (.ok 0)] at first
  simp only [Prod.mk.injEq, Stream.mk.injEq] at first
  exact ⟨first.1.symm, reached first.2.2.1.symm⟩

/-- A parser does not end quietly where the lexer fails in another run: the error would be that of
every stream that ends there. -/
theorem not_quiet_of_stuck {error : LexError} (pulls : feed.Pulls drawn after)
    (pulls' : feed.Pulls drawn' between) (failed : between.advance = (.error error, last))
    (same : ∀ behind ending, parser.run ⟨feed.current, drawn ++ behind, ending, feed.previous⟩ =
      (result, ⟨after.current, behind, ending, after.previous⟩))
    (same' : ∀ other, parser.run ⟨feed.current, drawn', .error other, feed.previous⟩ =
      (.error (.lexical other), ⟨between.current, [], .error other, between.previous⟩)) :
    False := by
  have longer : ∃ behind, drawn' = drawn ++ behind := by
    rcases pulls.compare pulls' with ⟨more, text, _⟩ | ⟨more, rfl, later⟩
    · exact ⟨more, text⟩
    · rw [(later.stops failed).1]
      exact ⟨[], by simp⟩
  rcases longer with ⟨behind, rfl⟩
  have differs : ∀ other, result = .error (.lexical other) := fun other =>
    congrArg Prod.fst ((same behind (.error other)).symm.trans (same' other))
  have alike := (differs (.noMatch "" 0)).symm.trans (differs (.invalidRule ""))
  simp at alike

end Pairs

/-- There is one way to carry out a parser. Two runs draw the same tokens as far as both go, and what
has been drawn decides where a run ends. -/
theorem Carries.unique {result' : Except ParseError α} {after' : Feed}
    (carries : parser.Carries feed result after) (carries' : parser.Carries feed result' after') :
    result = result' ∧ after = after' := by
  rcases carries.shows with ⟨pulls, same⟩ | ⟨pulls, failed, same⟩
  all_goals rcases carries'.shows with ⟨pulls', same'⟩ | ⟨pulls', failed', same'⟩
  · exact quiet_unique pulls pulls' same same'
  · exact absurd same' (not_quiet_of_stuck pulls pulls' failed' same)
  · exact absurd same (not_quiet_of_stuck pulls' pulls failed same')
  · rcases pulls.stops_once pulls' failed failed' with ⟨rfl, rfl⟩
    exact ⟨rfl, rfl⟩

end Parser

end Calculator

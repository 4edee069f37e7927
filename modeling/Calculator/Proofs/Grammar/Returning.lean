import Calculator.Proofs.Grammar.Feed
import Calculator.Proofs.Grammar.Stepwise

/-!
Parsers return. On every feed each parser of the language comes to an end. It takes none but proper
tokens, and it asks for no more tokens than are left. A whole parse asks the lexer for one token more
than the source has at most, however often the lexer would yield the end token.
-/

namespace Calculator

open Calculator.Parser

variable {α β : Type}

namespace Feed

/-- What a parser does with a feed until it ends: it takes some tokens, of which none is the end
token. What it asks for is paid with tokens that are left, and after a success what is left is enough
for what is still to be asked. -/
structure Spends (feed : Feed) (drawn : List Token) (result : Except ParseError α) (after : Feed) :
    Prop where
  taken : after.taken = feed.taken ++ drawn
  proper : ∀ token ∈ drawn, token.kind ≠ .endOfInput
  asked : after.asked ≤ feed.asked + feed.stream.size
  left : ∀ value, result = .ok value →
    after.asked + after.stream.size ≤ feed.asked + feed.stream.size
  unmoved : drawn = [] → after.stream = feed.stream

variable {feed between after : Feed} {drawn drawn' : List Token} {result : Except ParseError β}

theorem spends_nothing (feed : Feed) (result : Except ParseError α) :
    feed.Spends [] result feed where
  taken := (List.append_nil _).symm
  proper _ member := absurd member List.not_mem_nil
  asked := Nat.le_add_right _ _
  left _ _ := Nat.le_refl _
  unmoved _ := rfl

theorem Spends.bind {value : α} (first : feed.Spends drawn (.ok value) between)
    (rest : between.Spends drawn' result after) : feed.Spends (drawn ++ drawn') result after where
  taken := by rw [rest.taken, first.taken, List.append_assoc]
  proper := List.forall_mem_append.mpr ⟨first.proper, rest.proper⟩
  asked := Nat.le_trans rest.asked (first.left value rfl)
  left last success := Nat.le_trans (rest.left last success) (first.left value rfl)
  unmoved empty := by
    rcases List.append_eq_nil_iff.mp empty with ⟨empty, empty'⟩
    exact (rest.unmoved empty').trans (first.unmoved empty)

theorem Spends.stop {error : ParseError}
    (first : feed.Spends drawn (.error error : Except ParseError α) after) :
    feed.Spends drawn (.error error : Except ParseError β) after where
  taken := first.taken
  proper := first.proper
  asked := first.asked
  left _ success := by cases success
  unmoved := first.unmoved

theorem spends_advance (more : feed.current.kind ≠ .endOfInput) :
    ∃ drawn, feed.Spends drawn (feed.advance.1.mapError ParseError.lexical) feed.advance.2 := by
  have moves := feed.run_advance
  cases next : feed.lexer.next feed.scan with
  | mk found place =>
    cases found with
    | error error =>
      have same : feed.advance.2.stream = feed.stream := by
        rcases Lexer.tokens_of_error next with ⟨here, there⟩
        rw [advance_error next]
        simp only [stream, here, there]
      have enough : 1 ≤ feed.stream.size :=
        Nat.pos_of_ne_zero fun used => more (Stream.atEnd_of_size used)
      refine ⟨[], ?_, fun _ member => absurd member List.not_mem_nil, ?_, ?_, fun _ => same⟩
      · rw [advance_error next, List.append_nil]
      · rw [advance_error next]
        exact Nat.add_le_add_left enough _
      · intro value success
        rw [advance_error next] at success
        cases success
    | ok token =>
      rw [advance_ok next] at moves ⊢
      have fewer := Stream.size_advance_lt (yields_advance.mp moves).2 more
      refine ⟨[feed.current], rfl, List.forall_mem_singleton.mpr more, ?_, ?_, ?_⟩
      · change feed.asked + 1 ≤ _
        omega
      · intro value success
        change feed.asked + 1 + _ ≤ _
        omega
      · intro empty
        cases empty

end Feed

namespace Parser

variable {parser : Parser α} {feed : Feed} {stream : Stream}

theorem Stepwise.spends (stepwise : Stepwise parser stream) (feed : Feed)
    (here : feed.stream = stream) : ∃ drawn result after,
      parser.Carries feed result after ∧ feed.Spends drawn result after := by
  -- Each step can be carried out, and the tokens that it leaves are those that the next can spend.
  induction stepwise generalizing feed with
  | pure value => exact ⟨[], _, feed, .pure value feed, feed.spends_nothing _⟩
  | fail error => exact ⟨[], _, feed, .fail error feed, feed.spends_nothing _⟩
  | current => exact ⟨[], _, feed, .current feed, feed.spends_nothing _⟩
  | previous => exact ⟨[], _, feed, .previous feed, feed.spends_nothing _⟩
  | advance more =>
    subst here
    rcases Feed.spends_advance more with ⟨drawn, spends⟩
    exact ⟨drawn, _, _, .advance feed, spends⟩
  | bind _ _ first rest =>
    subst here
    rcases first feed rfl with ⟨drawn, result, between, carries, spends⟩
    cases result with
    | error error => exact ⟨drawn, _, between, .stop carries, spends.stop⟩
    | ok value =>
      rcases rest value between.stream carries.run_eq between rfl with
        ⟨drawn', result, after, carries', spends'⟩
      exact ⟨drawn ++ drawn', result, after, .goOn carries carries', spends.bind spends'⟩

/-- A parser has been carried out, as it runs and in no other way. It has taken some tokens, none of
them the end token, and on success as many as it must. -/
structure Ended (least : Nat) (parser : Parser α) (feed : Feed) (drawn : List Token)
    (result : Except ParseError α) (after : Feed) : Prop where
  carries : parser.Carries feed result after
  unique : ∀ result' after', parser.Carries feed result' after' → result' = result ∧ after' = after
  runs : parser.run feed.stream = (result, after.stream)
  taken : after.taken = feed.taken ++ drawn
  proper : ∀ token ∈ drawn, token.kind ≠ .endOfInput
  enough : ∀ value, result = .ok value → least ≤ drawn.length
  asked : after.asked ≤ feed.asked + feed.stream.size

def Returns (least : Nat) (parser : Parser α) (feed : Feed) : Prop :=
  ∃ drawn result after, parser.Ended least feed drawn result after

theorem Stepwise.returns {least : Nat} (stepwise : Stepwise parser feed.stream)
    (takes : Agree least feed.stream parser parser) (small : least ≤ 1) :
    parser.Returns least feed := by
  rcases stepwise.spends feed rfl with ⟨drawn, result, after, carries, spends⟩
  refine ⟨drawn, result, after, carries, ?_, carries.run_eq, spends.taken, spends.proper, ?_,
    spends.asked⟩
  · exact fun result' after' carries' => carries'.unique carries
  · rintro value rfl
    cases drawn with
    | cons token drawn =>
      rw [List.length_cons]
      omega
    | nil =>
      -- A parser that has taken nothing would have left the stream as it was.
      have taken := takes.takes value _ carries.run_eq
      rw [spends.unmoved rfl] at taken
      omega

end Parser

/-- On a feed all parsers of the language return. A program may have no token; whatever else is parsed
has one at least. -/
structure Feed.Returning (feed : Feed) : Prop where
  level : ∀ level : Level, level.parser.Returns 1 feed
  statement : statement.Returns 1 feed
  block : block.Returns 1 feed
  program : program.Returns 0 feed

theorem Feed.returning (feed : Feed) : feed.Returning where
  level level :=
    (stepwise_level level fun later _ => stepwise_expression later).returns (level.takes feed.stream)
      (Nat.le_refl 1)
  statement := (stepwise_statement feed.stream).returns (agree_statement feed.stream) (Nat.le_refl 1)
  block :=
    (stepwise_block feed.stream).returns (agree_blockWith fun later _ => agree_statement later)
      (Nat.le_refl 1)
  program :=
    (stepwise_program feed.stream).returns (agree_statementList fun later _ => agree_statement later)
      (Nat.zero_le 1)

inductive Program.Parsed (lexer : Lexer) (source : String) :
    Except ParseError Program → Nat → Prop
  | unopened {error : LexError} (fails : Feed.start lexer source = .error error) :
      Parsed lexer source (.error (.lexical error)) 1
  | opened {feed after : Feed} {result : Except ParseError Program}
      (opens : Feed.start lexer source = .ok feed) (carries : program.Carries feed result after) :
      Parsed lexer source result after.asked

section Whole

variable {lexer : Lexer} {source : String} {feed : Feed}

theorem Feed.start_asked (opens : start lexer source = .ok feed) :
    feed.asked + feed.stream.size ≤ (lexer.tokens (.start source)).1.length + 1 := by
  rw [start] at opens
  cases next : lexer.next (.start source) with
  | mk found after =>
    rw [next] at opens
    cases found with
    | error error => cases opens
    | ok token =>
      cases opens
      rcases Lexer.tokens_of_ok next with here | ⟨pos, rfl, here, there⟩
      · have bound := Stream.size_le_length_rest
          (Feed.stream ⟨lexer, after, token, none, [], 1⟩)
        rw [here]
        simp only [Stream.rest, Feed.stream] at bound ⊢
        omega
      · simp [Stream.size, Feed.stream, Token.atEnd, here, there]

theorem Program.Parsed.unique {result result' : Except ParseError Program} {requests requests' : Nat}
    (parsed : Parsed lexer source result requests) (parsed' : Parsed lexer source result' requests') :
    result = result' ∧ requests = requests' := by
  rcases parsed with fails | ⟨opens, carries⟩
  all_goals rcases parsed' with fails' | ⟨opens', carries'⟩
  · rw [fails] at fails'
    cases fails'
    exact ⟨rfl, rfl⟩
  · rw [fails] at opens'
    cases opens'
  · rw [opens] at fails'
    cases fails'
  · rw [opens] at opens'
    cases opens'
    rcases carries.unique carries' with ⟨rfl, rfl⟩
    exact ⟨rfl, rfl⟩

theorem Program.parsed (lexer : Lexer) (source : String) : ∃ requests,
    Parsed lexer source (Program.parse lexer source) requests ∧
      requests ≤ (lexer.tokens (.start source)).1.length + 1 := by
  rw [Program.parse, Feed.ofSource_eq]
  cases opens : Feed.start lexer source with
  | error error => exact ⟨1, .unopened opens, Nat.le_add_left 1 _⟩
  | ok feed =>
    rcases feed.returning.program with ⟨drawn, result, after, ended⟩
    refine ⟨after.asked, ?_, Nat.le_trans ended.asked (Feed.start_asked opens)⟩
    simp only [Except.map, ended.runs]
    exact .opened opens ended.carries

end Whole

/-- Every parser returns in every state of a feed, whatever has led to it and whatever is wrong with
the source. A whole parse has one course, with one request more than the source has tokens at most. -/
theorem parsers_return (lexer : Lexer) (source : String) :
    (∀ feed : Feed, feed.Returning) ∧
      ∃ requests, Program.Parsed lexer source (Program.parse lexer source) requests ∧
        requests ≤ (lexer.tokens (.start source)).1.length + 1 ∧
        ∀ result requests', Program.Parsed lexer source result requests' →
          result = Program.parse lexer source ∧ requests' = requests := by
  rcases Program.parsed lexer source with ⟨requests, parsed, few⟩
  refine ⟨Feed.returning, requests, parsed, few, ?_⟩
  exact fun result requests' parsed' => parsed'.unique parsed

end Calculator

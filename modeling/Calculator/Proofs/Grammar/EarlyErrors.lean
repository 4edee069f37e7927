import Calculator.Proofs.Grammar.Joining
import Calculator.Proofs.Grammar.Lookahead
import Calculator.Proofs.Grammar.StatementViability

/-!
Errors are reported as early as they can be. What stands in front of an error is the beginning of a
program, and a token that is refused would be refused whatever followed it.
-/

namespace Calculator

open Calculator.Lexer

section Places

/-- Where the first of some tokens stands, or else where the text behind them ends or cannot be cut
any further. -/
def nextPos? : List Token → Except LexError Nat → Option Nat
  | token :: _, _ => some token.pos
  | [], .ok pos => some pos
  | [], .error error => error.pos?

inductive Stream.Holds : Stream → List Token → Except LexError Nat → Prop
  | more (token : Token) (ahead : List Token) (ending : Except LexError Nat)
      (previous : Option Kind) : Holds ⟨token, ahead, ending, previous⟩ (token :: ahead) ending
  | ended (pos : Nat) (previous : Option Kind) :
      Holds ⟨.atEnd pos, [], .ok pos, previous⟩ [] (.ok pos)

variable {stream next after : Stream} {tokens front : List Token} {ending : Except LexError Nat}
  {error : ParseError} {fault : LexError} {token : Token}

theorem Stream.holds_ofTokens (begins : Stream.ofTokens tokens ending = .ok stream) :
    stream.Holds tokens ending := by
  cases tokens with
  | cons token ahead =>
    cases begins
    exact .more token ahead ending none
  | nil =>
    cases ending with
    | ok pos =>
      cases begins
      exact .ended pos none
    | error error => cases begins

theorem Stream.Holds.advance (holds : stream.Holds tokens ending)
    (moved : stream.advance = .ok next) : next.Holds tokens.tail ending := by
  cases holds with
  | ended pos previous =>
    cases moved
    exact .ended pos _
  | more token ahead ending previous =>
    cases ahead with
    | cons token' ahead =>
      cases moved
      exact .more token' ahead ending _
    | nil =>
      cases ending with
      | ok pos =>
        cases moved
        exact .ended pos _
      | error error => cases moved

theorem Stream.Holds.stuck (holds : stream.Holds tokens ending)
    (stop : stream.advance = .error fault) : tokens = [stream.current] ∧ ending = .error fault := by
  cases holds with
  | ended pos previous => cases stop
  | more token ahead ending previous =>
    cases ahead with
    | cons token' ahead => cases stop
    | nil =>
      cases ending with
      | ok pos => cases stop
      | error error =>
        cases stop
        exact ⟨rfl, rfl⟩

theorem Stream.Holds.pos (holds : stream.Holds tokens ending) :
    some stream.current.pos = nextPos? tokens ending := by
  cases holds <;> rfl

theorem ParseError.Refuses.pos? (refuses : error.Refuses token) : error.pos? = some token.pos := by
  cases error with
  | lexical | invalidLiteral => exact absurd refuses id
  | unexpected | missingThen | notCallable => exact congrArg some refuses.2

theorem Token.Misread.pos? (misread : token.Misread error) : error.pos? = some token.pos := by
  rcases misread with rfl | ⟨place, _⟩
  · rfl
  · exact place

/-- An error stands at the first token that has not been passed. Past the last token there is
nothing to pass but the end of the input. -/
theorem Reaches.place (reaches : Reaches stream front error after)
    (holds : stream.Holds tokens ending) :
    ∃ passed back ended, tokens = passed ++ back ∧ front = passed ++ ended ∧
      (∀ token ∈ ended, token.kind = .endOfInput) ∧ error.pos? = nextPos? back ending := by
  have nothing : ∀ token ∈ ([] : List Token), token.kind = .endOfInput :=
    fun _ member => absurd member List.not_mem_nil
  induction reaches generalizing tokens with
  | refused here => exact ⟨[], tokens, [], rfl, rfl, nothing, here.pos?.trans holds.pos⟩
  | misread moved here => exact ⟨[], tokens, [], rfl, rfl, nothing, here.pos?.trans holds.pos⟩
  | stuck stop =>
    rcases holds.stuck stop with ⟨rfl, rfl⟩
    exact ⟨[_], [], [], rfl, rfl, nothing, rfl⟩
  | step moved later ih =>
    rcases ih (holds.advance moved) with ⟨passed, back, ended, text, rfl, ends, place⟩
    cases holds with
    | more token ahead ending previous =>
      exact ⟨token :: passed, back, ended, congrArg _ text, rfl, ends, place⟩
    | ended pos previous =>
      rcases List.append_eq_nil_iff.mp text.symm with ⟨rfl, rfl⟩
      exact ⟨[], [], _, rfl, rfl, List.forall_mem_cons.mpr ⟨rfl, ends⟩, place⟩

def ParseError.AtToken : ParseError → Prop
  | unexpected _ found _ | missingThen found _ => found ≠ .endOfInput
  | notCallable _ => True
  | lexical _ | invalidLiteral .. => False

theorem ParseError.Refuses.regular (refuses : error.Refuses token) (real : error.AtToken) :
    token.kind ≠ .endOfInput := by
  cases error with
  | lexical | invalidLiteral => exact absurd real id
  | unexpected | missingThen => exact refuses.1 ▸ real
  | notCallable => simp [refuses.1]

/-- A token that is refused is the one at which the parser stops. -/
theorem Reaches.refusal (reaches : Reaches stream front error after)
    (holds : stream.Holds tokens ending) (known : ∀ token ∈ tokens, Known token)
    (real : error.AtToken) :
    ∃ front rest, tokens = front ++ after.current :: rest ∧ after.ahead = rest ∧
      after.current.kind ≠ .endOfInput ∧ error.pos? = some after.current.pos := by
  induction reaches generalizing tokens with
  | refused here =>
    have regular := here.regular real
    cases holds with
    | more token ahead ending previous => exact ⟨[], ahead, rfl, rfl, regular, here.pos?⟩
    | ended pos previous => exact absurd rfl regular
  | misread moved here =>
    rcases here with rfl | ⟨_, type, unnamed⟩
    · exact absurd real id
    · cases holds with
      | more token ahead ending previous =>
        have named := (known token List.mem_cons_self).named type
        exact absurd (unnamed ▸ named) (by simp)
      | ended pos previous => cases type
  | stuck stop => exact absurd real id
  | step moved later ih =>
    have known' : ∀ token ∈ tokens.tail, Known token :=
      fun token member => known token (List.mem_of_mem_tail member)
    rcases ih (holds.advance moved) known' real with ⟨front, rest, text, same⟩
    cases holds with
    | more token ahead ending previous => exact ⟨token :: front, rest, congrArg _ text, same⟩
    | ended pos previous => simp at text

end Places

section Texts

variable {skips : Bool} {scan : Scan} {tokens : List Token} {ending : Except LexError Nat}
  {source : String} {error : ParseError}

theorem Lexer.Lexes.nextPos (lexes : Lexes skips scan tokens ending)
    (stays : (standard skips).skip scan = scan) : nextPos? tokens ending = some scan.pos := by
  cases lexes with
  | ended nothing =>
    rw [stays] at nothing
    rw [nextPos?, Scan.endPos, nothing, byteCount, Nat.add_zero]
  | stuck more failed =>
    rcases (next_eq_error more).mp failed with ⟨_, rfl, _⟩
    rw [nextPos?, LexError.pos?, stays]
  | word text longest known later => rw [nextPos?, stays]

theorem Lexer.Lexes.places {front back : List Token}
    (lexes : Lexes skips (.start source) (front ++ back) ending) :
    ∃ before after, source = before ++ after ∧ nextPos? back ending = some before.utf8ByteSize ∧
      Lexes skips (.start before) front (.ok before.utf8ByteSize) ∧
      Lexes skips ⟨after.toList, before.utf8ByteSize⟩ back ending ∧
      (standard skips).skip ⟨after.toList, before.utf8ByteSize⟩ =
        ⟨after.toList, before.utf8ByteSize⟩ := by
  rcases lexes.split with ⟨before, after, whole, first, second, stays⟩
  have start : (Scan.start source).pos + byteCount before = (String.ofList before).utf8ByteSize :=
    (Nat.zero_add _).trans (byteCount_eq before)
  rw [start] at first second stays
  refine ⟨String.ofList before, String.ofList after, ?_, second.nextPos stays, ?_, ?_, ?_⟩
  · rw [← String.ofList_append, ← whole]
    exact String.ofList_toList.symm
  · rw [Scan.start, String.toList_ofList]
    exact first
  · rw [String.toList_ofList]
    exact second
  · rw [String.toList_ofList]
    exact stays

theorem Lexer.Lexes.pos_lt (lexes : Lexes skips scan tokens ending) :
    ∀ token ∈ tokens, token.pos < scan.endPos := by
  induction lexes with
  | ended => exact fun _ member => absurd member List.not_mem_nil
  | stuck => exact fun _ member => absurd member List.not_mem_nil
  | @word scan word tail kind tokens ending text longest known later ih =>
    have place : scan.endPos =
        ((standard skips).skip scan).pos + byteCount word + byteCount tail := by
      rw [← endPos_skip (standard skips) scan, Scan.endPos, text, byteCount_append, Nat.add_assoc]
    have letters := byteCount_pos longest.nonempty
    rw [place]
    refine List.forall_mem_cons.mpr ⟨?_, ih⟩
    simp only
    omega

theorem Lexer.Lexes.sensible (lexes : Lexes skips scan tokens ending)
    (fit : ∀ token ∈ tokens, token.kind = .number →
      Nat.ofDigitChars 10 token.text.toList 0 < 9223372036854775808) :
    ∀ token ∈ tokens, token.Sensible := by
  intro token member
  have known := lexes.known token member
  exact ⟨known.spelled.reads_iff.mpr (fit token member), known.named⟩

theorem exists_continuation {before : List Char} {passed : List Token} {last : Nat}
    (lexes : Lexes true ⟨before, 0⟩ passed (.ok last))
    (completable : Completable ListAccepts passed) :
    ∃ continuation program,
      parse true (String.ofList before ++ continuation) = .ok program := by
  rcases completable with ⟨back, written, statements, form⟩
  let scan : Scan := ⟨before, 0⟩
  rcases exists_lexes_spaced (fun token member => (written token member).known)
    (scan.endPos + byteCount [' ']) with ⟨others, stop, later, same⟩
  have blank : (standard true).skip ⟨[' '] ++ spaced back, scan.endPos⟩ = _ :=
    skip_append_blanks rfl
  have whole : Lexes true ⟨before ++ ' ' :: spaced back, 0⟩ (passed ++ others) (.ok stop) :=
    lexes.append (.inl rfl) (later.of_skip blank.symm)
  have text : Scan.start (String.ofList before ++ String.ofList (' ' :: spaced back)) =
      ⟨before ++ ' ' :: spaced back, 0⟩ := by
    rw [Scan.start, String.toList_append, String.toList_ofList, String.toList_ofList]
  have form' : ProgramForm ((passed ++ others).map (·.relocate fun _ => 0))
      (Program.relocate (fun _ => 0) statements) := by
    rw [List.map_append, same, ← List.map_append]
    exact programForm_relocate_iff.mpr ⟨statements, form, rfl⟩
  rcases programForm_relocate_iff.mp form' with ⟨program, form'', _⟩
  rw [← text] at whole
  exact ⟨String.ofList (' ' :: spaced back), program,
    parse_eq_ok.mpr (parse_ok_iff.mpr ⟨_, stop, whole, form''⟩)⟩

theorem parse_eq_error {failure : Failure} : parse skips source = .error failure ↔
    ∃ error, Program.parse (standard skips) source = .error error ∧
      error.toFailure = failure := by
  rw [parse]
  cases Program.parse (standard skips) source <;> simp [Except.mapError]

theorem parse_error_iff (lexes : Lexes skips (.start source) tokens ending) :
    Program.parse (standard skips) source = .error error ↔
      (∃ fault, Stream.ofTokens tokens ending = .error fault ∧ error = .lexical fault) ∨
        ∃ stream after, Stream.ofTokens tokens ending = .ok stream ∧
          Parser.program.Fails stream error after := by
  rw [Program.parse, Stream.ofSource, lexes.tokens_eq]
  cases begins : Stream.ofTokens tokens ending with
  | error fault =>
    simp only [begins]
    constructor
    · rintro ⟨⟩
      exact .inl ⟨fault, rfl, rfl⟩
    · rintro (⟨_, ⟨⟩, rfl⟩ | ⟨_, _, ⟨⟩, _⟩)
      rfl
  | ok stream =>
    simp only [begins]
    constructor
    · intro failed
      exact .inr ⟨stream, (Parser.program.run stream).2, rfl, Prod.ext failed rfl⟩
    · rintro (⟨_, ⟨⟩, _⟩ | ⟨_, after, ⟨⟩, fails⟩)
      exact congrArg Prod.fst fails

theorem Token.sensible_of_ended {token : Token} (ended : token.kind = .endOfInput) :
    token.Sensible :=
  ⟨Token.reads_of_kind (by simp [ended]) (by simp [ended]), fun type => by simp [ended] at type⟩

theorem rejected_behind (lexes : Lexes true (.start source) tokens ending)
    (rejected : Program.parse (standard true) source = .error error) :
    ∃ passed back, tokens = passed ++ back ∧ error.pos? = nextPos? back ending ∧
      ((∀ token ∈ passed, token.Sensible) → Completable ListAccepts passed) := by
  rcases (parse_error_iff lexes).mp rejected with
    ⟨fault, begins, rfl⟩ | ⟨stream, after, begins, fails⟩
  · cases tokens with
    | cons token ahead => cases begins
    | nil =>
      cases ending with
      | ok pos => cases begins
      | error error =>
        cases begins
        exact ⟨[], [], rfl, rfl, fun _ => .now listAccepts_nil⟩
  · rcases program_viable fails with ⟨front, reaches, complete⟩
    rcases reaches.place (Stream.holds_ofTokens begins) with
      ⟨passed, back, ended, text, rfl, ends, place⟩
    refine ⟨passed, back, text, place, ?_⟩
    intro sensible
    have sensible' : ∀ token ∈ passed ++ ended, token.Sensible :=
      List.forall_mem_append.mpr
        ⟨sensible, fun token member => Token.sensible_of_ended (ends token member)⟩
    have completable := complete sensible'
    -- A program has no token for the end of the input, so the parser has not passed one.
    have regular : ended = [] := by
      rcases completable with ⟨more, _, statements, form⟩
      apply List.eq_nil_iff_forall_not_mem.mpr
      intro token member
      exact form.kinds token (by simp [member]) (ends token member)
    rwa [regular, List.append_nil] at completable

theorem Stream.shares_ofTokens {front rest : List Token} {token : Token} {stream : Stream}
    (begins : Stream.ofTokens (front ++ token :: rest) ending = .ok stream) (rest' : List Token)
    (ending' : Except LexError Nat) :
    ∃ other, Stream.ofTokens (front ++ token :: rest') ending' = .ok other ∧
      stream.Shares rest.length other := by
  cases front with
  | nil =>
    cases begins
    exact ⟨_, rfl, rfl, rfl, [], rest, rest', rfl, rfl, rfl⟩
  | cons first front =>
    cases begins
    refine ⟨_, rfl, rfl, rfl, front ++ [token], rest, rest', ?_, ?_, rfl⟩
    · exact List.append_cons front token rest
    · exact List.append_cons front token rest'

theorem refused_again (lexes : Lexes skips (.start source) tokens ending)
    (rejected : Program.parse (standard skips) source = .error error) (real : error.AtToken) :
    ∃ front token rest, tokens = front ++ token :: rest ∧ error.pos? = some token.pos ∧
      ∀ other, front ++ [token] <+: ((standard skips).tokens (.start other)).1 →
        Program.parse (standard skips) other = .error error := by
  have unlexical : ∀ fault, error ≠ .lexical fault := by
    rintro fault rfl
    exact real
  rcases (parse_error_iff lexes).mp rejected with
    ⟨fault, _, lexical⟩ | ⟨stream, after, begins, fails⟩
  · exact absurd lexical (unlexical fault)
  rcases program_viable fails with ⟨_, reaches, _⟩
  rcases reaches.refusal (Stream.holds_ofTokens begins) lexes.known real with
    ⟨front, rest, rfl, ahead, regular, place⟩
  refine ⟨front, after.current, rest, rfl, place, ?_⟩
  rintro other ⟨rest', text⟩
  have lexes' := exists_lexes skips (.start other)
  rw [← text, List.append_assoc] at lexes'
  rcases Stream.shares_ofTokens begins rest' ((standard skips).tokens (.start other)).2 with
    ⟨stream', begins', shares⟩
  have shared : rest.length < after.size := by
    rw [Stream.size, ahead, if_neg regular]
    exact Nat.lt_succ_self _
  have lexed : ∀ fault, (.error error : Except ParseError Program) ≠ .error (.lexical fault) :=
    fun fault same => unlexical fault (Except.error.inj same)
  rcases (Parser.steady_program stream).repeats _ after fails lexed _ stream' shares shared with
    ⟨after', fails', _⟩
  exact (parse_error_iff lexes').mpr (.inr ⟨stream', after', begins', fails'⟩)

def Failure.pos? : Failure → Option Nat
  | lexical error => error.pos?
  | syntactic error => error.pos?
  | runtime error => some error.pos

def Failure.AtToken : Failure → Prop
  | syntactic error => error.AtToken
  | lexical _ | runtime _ => False

theorem ParseError.pos?_toFailure (error : ParseError) : error.toFailure.pos? = error.pos? := by
  cases error <;> rfl

theorem ParseError.atToken_toFailure : error.toFailure.AtToken ↔ error.AtToken := by
  cases error <;> exact Iff.rfl

def sourceTokens (source : String) : List Token := ((standard true).tokens (.start source)).1

/-- Every failure has a place. Up to there the source can be continued to one that parses, if all
numbers up to there fit in 64 bits. When a token is refused, then all sources that share the tokens
up to and including this one are refused alike. -/
theorem rejected_as_early_as_possible (source : String) (failure : Failure)
    (rejected : parse true source = .error failure) :
    ∃ pos, failure.pos? = some pos ∧
      ((∀ token ∈ sourceTokens source, token.kind = .number → token.pos < pos →
          Nat.ofDigitChars 10 token.text.toList 0 < 9223372036854775808) →
        ∃ before after continuation program, source = before ++ after ∧
          before.utf8ByteSize = pos ∧ parse true (before ++ continuation) = .ok program) ∧
      (failure.AtToken →
        ∃ front token rest, sourceTokens source = front ++ token :: rest ∧ token.pos = pos ∧
          ∀ other, front ++ [token] <+: sourceTokens other →
            parse true other = .error failure) := by
  rcases parse_eq_error.mp rejected with ⟨error, failed, rfl⟩
  have lexes := exists_lexes true (.start source)
  rcases rejected_behind lexes failed with ⟨passed, back, text, place, complete⟩
  have lexes' := lexes
  rw [text] at lexes'
  rcases lexes'.split with ⟨before, after, whole, first, second, stays⟩
  have start : (Scan.start source).pos + byteCount before = byteCount before := Nat.zero_add _
  rw [start] at first second stays
  have place' := place.trans (second.nextPos stays)
  refine ⟨byteCount before, ?_, ?_, ?_⟩
  · rw [ParseError.pos?_toFailure, place']
  · intro fit
    have sensible : ∀ token ∈ passed, token.Sensible := by
      apply first.sensible
      intro token member kind
      have inside : token ∈ sourceTokens source := by
        rw [sourceTokens, text]
        exact List.mem_append_left back member
      have bound := first.pos_lt token member
      rw [Scan.endPos, start] at bound
      exact fit token inside kind bound
    rcases exists_continuation first (complete sensible) with ⟨continuation, program, parsed⟩
    refine ⟨String.ofList before, String.ofList after, continuation, program, ?_, ?_, parsed⟩
    · rw [← String.ofList_append, ← whole]
      exact String.ofList_toList.symm
    · exact (byteCount_eq before).symm
  · intro real
    rcases refused_again lexes failed (ParseError.atToken_toFailure.mp real) with
      ⟨front, token, rest, text, place, again⟩
    refine ⟨front, token, rest, text, ?_, ?_⟩
    · exact Option.some.inj (place.symm.trans place')
    · exact fun other begins => parse_eq_error.mpr ⟨error, again other begins, rfl⟩

theorem name_behind_number_refused :
    (parse true "1 y" =
        .error (.syntactic (.unexpected (.anyOf [.newline, .semicolon]) .identifier 2)) ∧
      sourceTokens "1 y" = [⟨.number, "1", 0⟩, ⟨.identifier, "y", 2⟩]) ∧
    (∃ before after continuation program, "1 y" = before ++ after ∧ before.utf8ByteSize = 2 ∧
      parse true (before ++ continuation) = .ok program) ∧
    parse true "1 y $" =
      .error (.syntactic (.unexpected (.anyOf [.newline, .semicolon]) .identifier 2)) := by
  have first : Lexes true ⟨['1'], 0⟩ [⟨.number, "1", 0⟩] (.ok 1) :=
    Lexes.single (List.cons_ne_nil '1' []) (by decide)
  have second : Lexes true ⟨['y'], 2⟩ [⟨.identifier, "y", 2⟩] (.ok 3) :=
    Lexes.single (List.cons_ne_nil 'y' []) (by decide)
  have blank : (standard true).skip ⟨['y'], 2⟩ = (standard true).skip ⟨[' ', 'y'], 1⟩ := rfl
  have lexes : Lexes true (.start "1 y") [⟨.number, "1", 0⟩, ⟨.identifier, "y", 2⟩] (.ok 3) :=
    first.append (.inl rfl) (second.of_skip blank)
  have tokens : sourceTokens "1 y" = [⟨.number, "1", 0⟩, ⟨.identifier, "y", 2⟩] :=
    congrArg Prod.fst lexes.tokens_eq
  have rejected : parse true "1 y" =
      .error (.syntactic (.unexpected (.anyOf [.newline, .semicolon]) .identifier 2)) := by
    rw [parse, Program.parse, Stream.ofSource, lexes.tokens_eq]
    rfl
  rcases rejected_as_early_as_possible "1 y" _ rejected with ⟨pos, place, viable, again⟩
  obtain rfl : pos = 2 := (Option.some.inj place).symm
  refine ⟨⟨rejected, tokens⟩, viable ?_, ?_⟩
  · rw [tokens]
    intro token member kind
    simp only [List.mem_cons, List.not_mem_nil, or_false] at member
    rcases member with rfl | rfl
    · decide
    · cases kind
  · rcases again (by simp [Failure.AtToken, ParseError.AtToken]) with
      ⟨front, token, rest, text, _, refused⟩
    apply refused
    have whole : Lexes true (.start "1 y $") _ _ :=
      lexes.append (.inl rfl) (exists_lexes true ⟨[' ', '$'], 3⟩)
    have begins : sourceTokens "1 y" <+: sourceTokens "1 y $" := by
      rw [tokens, sourceTokens, whole.tokens_eq]
      exact List.prefix_append _ _
    rw [text, List.append_cons] at begins
    exact (List.prefix_append _ rest).trans begins

end Texts

end Calculator

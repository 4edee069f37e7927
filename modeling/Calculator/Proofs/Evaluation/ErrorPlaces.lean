import Calculator.Proofs.Evaluation.Depth
import Calculator.Proofs.Evaluation.Relocation
import Calculator.Proofs.Grammar.EarlyErrors

/-!
Where failures are reported. The parser stops at one of its tokens or at the end of the source.
A run takes the places of its errors from the program, and the program has them from the tokens.
-/

namespace Calculator

open Calculator.Lexer

section Parsing

variable {stream after : Stream} {tokens front : List Token} {ending : Except LexError Nat}
  {error : ParseError}

inductive ParseError.Stops (tokens : List Token) (ending : Except LexError Nat) : ParseError → Prop
  | uncut {fault : LexError} (stuck : ending = .error fault) : Stops tokens ending (.lexical fault)
  | token {error : ParseError} {token : Token} (member : token ∈ tokens)
      (place : error.pos? = some token.pos) (cut : ∀ fault, error ≠ .lexical fault) :
      Stops tokens ending error
  | ended {error : ParseError} {pos : Nat} (finished : ending = .ok pos)
      (place : error.pos? = some pos) (cut : ∀ fault, error ≠ .lexical fault)
      (aside : ¬ error.AtToken) : Stops tokens ending error

theorem ParseError.Refuses.cut {token : Token} (refuses : error.Refuses token) (fault : LexError) :
    error ≠ .lexical fault := by
  rintro rfl
  exact refuses

theorem Reaches.stops (reaches : Reaches stream front error after)
    (holds : stream.Holds tokens ending) (known : ∀ token ∈ tokens, Known token) :
    error.Stops tokens ending := by
  -- Induction on the tokens that have been passed.
  induction reaches generalizing tokens with
  | refused here =>
    cases holds with
    | more token ahead ending previous => exact .token List.mem_cons_self here.pos? here.cut
    | ended pos previous =>
      exact .ended rfl here.pos? here.cut fun real => here.regular real rfl
  | misread moved here =>
    rcases here with rfl | ⟨_, type, unnamed⟩
    · cases holds with
      | more token ahead ending previous =>
        exact .token List.mem_cons_self rfl (by simp)
      | ended pos previous => exact .ended rfl rfl (by simp) id
    · cases holds with
      | more token ahead ending previous =>
        have named := (known token List.mem_cons_self).named type
        exact absurd (unnamed ▸ named) (by simp)
      | ended pos previous => cases type
  | stuck stop => exact .uncut (holds.stuck stop).2
  | step moved later ih =>
    have known' : ∀ token ∈ tokens.tail, Known token :=
      fun token member => known token (List.mem_of_mem_tail member)
    rcases ih (holds.advance moved) known' with
      stuck | ⟨member, place, cut⟩ | ⟨finished, place, cut, aside⟩
    · exact .uncut stuck
    · exact .token (List.mem_of_mem_tail member) place cut
    · exact .ended finished place cut aside

variable {skips : Bool} {source : String}

theorem rejected_stops (lexes : Lexes skips (.start source) tokens ending)
    (rejected : Program.parse (standard skips) source = .error error) :
    error.Stops tokens ending := by
  rcases (parse_error_iff lexes).mp rejected with
    ⟨fault, begins, rfl⟩ | ⟨stream, after, begins, fails⟩
  · cases tokens with
    | cons token ahead => cases begins
    | nil =>
      cases ending with
      | ok pos => cases begins
      | error error =>
        cases begins
        exact .uncut rfl
  · rcases program_viable fails with ⟨front, reaches, _⟩
    exact reaches.stops (Stream.holds_ofTokens begins) lexes.known

end Parsing

section Running

variable {V : Type} [Arithmetic V] {skips : Bool} {source : String} {tokens : List Token}

/-- A program has no other positions than its tokens: it stays as it is when others are moved. -/
theorem ProgramForm.relocate_eq {program : Program} {move : Nat → Nat}
    (form : ProgramForm tokens program) (still : ∀ token ∈ tokens, move token.pos = token.pos) :
    Program.relocate move program = program := by
  have same : tokens.map (·.relocate move) = tokens := by
    rw [List.map_congr_left (g := id), List.map_id]
    intro token member
    rw [Token.relocate, still token member, id]
  have moved : ProgramForm (tokens.map (·.relocate move)) (Program.relocate move program) :=
    programForm_relocate_iff.mpr ⟨program, form, rfl⟩
  rw [same] at moved
  exact moved.unique form

theorem Except.Moved.pos {α β : Type} {moves : (Nat → Nat) → Prop} {value : α → β → Prop}
    {error error' : EvalError} (moved : Except.Moved moves value (.error error) (.error error')) :
    ∃ move, moves move ∧ error'.pos = move error.pos := by
  cases moved with
  | error fault pos allowed => exact ⟨_, allowed, rfl⟩

theorem runtime_error_at_token {program : Program} (form : ProgramForm tokens program) {depth : Nat}
    {error : EvalError} {later : Session V}
    (failed : (program.eval depth).run (.start : Session V) = some (.error error, later)) :
    ∃ token ∈ tokens, token.pos = error.pos := by
  -- If no token stood where the error is reported, then moving that place would move the error and
  -- leave the program as it is.
  by_contra absent
  let move (pos : Nat) : Nat := if pos = error.pos then pos + 1 else pos
  have still : ∀ token ∈ tokens, move token.pos = token.pos :=
    fun token member => if_neg fun same => absent ⟨token, member, same⟩
  have alike : Session.Alike (.moving (move = ·)) (.start : Session V) .start :=
    ⟨⟨.nil, .nil⟩, .nil⟩
  have moves := evalStatements_moves (invoke_moves depth) rfl program none _ _ alike
  have same : relocateStatements move program = program := form.relocate_eq still
  have ends : (evalStatements (invoke depth) none program).run (.start : Session V) = _ := failed
  rw [same, ends] at moves
  have place : error.pos = move error.pos := by
    cases moves with
    | some outcome =>
      rcases outcome.result.pos with ⟨_, rfl, place⟩
      exact place
  rw [show move error.pos = error.pos + 1 from if_pos rfl] at place
  omega

end Running

inductive FailsWith (V : Type) [Arithmetic V] (skips : Bool) (source : String) : Failure → Prop
  | parsing {failure : Failure} (rejected : parse skips source = .error failure) :
      FailsWith V skips source failure
  | running {program : Program} {error : EvalError} {later : Session V}
      (parsed : parse skips source = .ok program)
      (failed : Eval.Ends (evalStatements · none program) .start (.error error) later) :
      FailsWith V skips source (.runtime error)

/-- Two texts that make a source, with one of its tokens at the start of the second. -/
def TokenBetween (skips : Bool) (before after : String) : Prop :=
  ∃ token ∈ ((standard skips).tokens (.start (before ++ after))).1,
    token.pos = before.utf8ByteSize ∧ token.text.toList <+: after.toList

/-- Two texts that make a source, of which the first is cut into all the tokens that the source has,
while no word of the language stands at the start of the second. -/
structure StuckBetween (skips : Bool) (before after : String) : Prop where
  cut : (standard skips).tokens (.start before) =
    (((standard skips).tokens (.start (before ++ after))).1, .ok before.utf8ByteSize)
  more : after ≠ ""
  unblank : (standard skips).skip ⟨after.toList, before.utf8ByteSize⟩ =
    ⟨after.toList, before.utf8ByteSize⟩
  nothing : ∀ word, word ≠ [] → word <+: after.toList → ¬ Accepted word

/-- What stands where a failure is reported. The end of a source is reported by the parser alone,
and only where it complains about no token. -/
def Failure.StandsBetween (skips : Bool) (before after : String) : Failure → Prop
  | lexical _ => StuckBetween skips before after
  | syntactic error => TokenBetween skips before after ∨ after = "" ∧ ¬ error.AtToken
  | runtime _ => TokenBetween skips before after

section Sources

variable {skips : Bool} {source : String} {tokens : List Token} {ending : Except LexError Nat}

theorem exists_tokenBetween (lexes : Lexes skips (.start source) tokens ending) {token : Token}
    (member : token ∈ tokens) :
    ∃ before after, source = before ++ after ∧ token.pos = before.utf8ByteSize ∧
      TokenBetween skips before after := by
  rcases List.append_of_mem member with ⟨front, back, rfl⟩
  rcases lexes.places with ⟨before, after, rfl, place, _, second, stays⟩
  have same : token.pos = before.utf8ByteSize := Option.some.inj place
  refine ⟨before, after, rfl, same, token, ?_, same, ?_⟩
  · rw [lexes.tokens_eq]
    exact member
  · cases second with
    | word text longest known later =>
      rw [stays] at text
      rw [String.toList_ofList, show after.toList = _ from text]
      exact List.prefix_append _ _

theorem exists_stuckBetween {fault : LexError}
    (lexes : Lexes skips (.start source) tokens (.error fault)) :
    ∃ before after, source = before ++ after ∧ fault.pos? = some before.utf8ByteSize ∧
      StuckBetween skips before after := by
  have whole := lexes
  rw [← List.append_nil tokens] at whole
  rcases whole.places with ⟨before, after, rfl, place, first, second, stays⟩
  refine ⟨before, after, rfl, place, ?_, ?_, stays, ?_⟩
  · rw [first.tokens_eq, lexes.tokens_eq]
  · rintro rfl
    cases second with
    | stuck more failed => exact more (congrArg Scan.rest stays)
  · cases second with
    | stuck more failed =>
      have nothing := ((next_eq_error more).mp failed).1
      rw [stays] at nothing
      exact nothing

theorem rejected_between {error : ParseError}
    (rejected : Program.parse (standard skips) source = .error error) :
    ∃ before after, source = before ++ after ∧
      error.toFailure.pos? = some before.utf8ByteSize ∧
      error.toFailure.StandsBetween skips before after := by
  have lexes := exists_lexes skips (.start source)
  generalize (standard skips).tokens (.start source) = cut at lexes
  rcases cut with ⟨tokens, ending⟩
  have regular : (∀ fault, error ≠ .lexical fault) → error.toFailure = .syntactic error := by
    intro cut
    cases error with
    | lexical fault => exact absurd rfl (cut fault)
    | unexpected | missingThen | notCallable | invalidLiteral => rfl
  rcases rejected_stops lexes rejected with
    stuck | ⟨member, place, cut⟩ | ⟨finished, place, cut, aside⟩
  · rw [stuck] at lexes
    exact exists_stuckBetween lexes
  · rcases exists_tokenBetween lexes member with ⟨before, after, whole, same, between⟩
    refine ⟨before, after, whole, ?_, ?_⟩
    · rw [ParseError.pos?_toFailure, place, same]
    · rw [regular cut]
      exact .inl between
  · refine ⟨source, "", String.append_empty.symm, ?_, ?_⟩
    · rw [finished] at lexes
      rw [ParseError.pos?_toFailure, place, lexes.endPos, Scan.endPos_start]
    · rw [regular cut]
      exact .inr ⟨rfl, aside⟩

end Sources

/-- Every failure is reported at a place that cuts the source into two texts: where the first text
stands that is no word, at a token, or, by the parser, at the end of the source. -/
theorem failures_stand_in_source (V : Type) [Arithmetic V] (skips : Bool) (source : String)
    (failure : Failure) (fails : FailsWith V skips source failure) :
    ∃ before after, source = before ++ after ∧ failure.pos? = some before.utf8ByteSize ∧
      failure.StandsBetween skips before after := by
  cases fails with
  | parsing rejected =>
    rcases parse_eq_error.mp rejected with ⟨error, failed, rfl⟩
    exact rejected_between failed
  | running parsed failed =>
    rcases parse_ok_iff.mp (parse_eq_ok.mp parsed) with ⟨tokens, last, lexes, form⟩
    rcases failed with ⟨depth, failed⟩
    rcases runtime_error_at_token form failed with ⟨token, member, same⟩
    rcases exists_tokenBetween lexes member with ⟨before, after, whole, place, between⟩
    exact ⟨before, after, whole, congrArg some (same.symm.trans place), between⟩

def readingWords : List Token :=
  [⟨.keyword .funcWord, "func", 0⟩, ⟨.identifier, "f", 0⟩, ⟨.leftParen, "(", 0⟩,
    ⟨.rightParen, ")", 0⟩, ⟨.leftBrace, "\x7b", 0⟩, ⟨.identifier, "y", 0⟩,
    ⟨.rightBrace, "\x7d", 0⟩, ⟨.identifier, "f", 0⟩, ⟨.leftParen, "(", 0⟩, ⟨.rightParen, ")", 0⟩]

theorem unbound_name_in_body :
    FailsWith Int64 true "func f ( ) { y } f ( )" (.runtime ⟨.unbound "y", 13⟩) ∧
      ∃ before after, "func f ( ) { y } f ( )" = before ++ after ∧
        some 13 = some before.utf8ByteSize ∧ TokenBetween true before after := by
  let program : Program := [.define ⟨"f", [], ⟨[.expression (.name "y" 13)], 11⟩, 0⟩,
    .expression (.call "f" [] 17)]
  have known : ∀ token ∈ readingWords, Known token := by decide
  have lexes : Lexes true (.start "func f ( ) { y } f ( )") _ _ := lexes_spaced known 0
  have parsed : parse true "func f ( ) { y } f ( )" = .ok program := by
    rw [parse, Program.parse, Stream.ofSource, lexes.tokens_eq]
    rfl
  have failed : Eval.Ends (evalStatements · none program) (.start : Session Int64)
      (.error ⟨.unbound "y", 13⟩) _ := ⟨1, rfl⟩
  have fails := FailsWith.running parsed failed
  exact ⟨fails, failures_stand_in_source Int64 true _ _ fails⟩

end Calculator

import Calculator.Proofs.Grammar.Writing

/-!
When a parser fails, and where: one rule for each way in which parsers are put together. The tokens
in front of a failure are viable if further words can make them what the parser was to find.
-/

namespace Calculator

open Calculator.Parser

def Stream.Stuck (stream : Stream) (error : ParseError) (after : Stream) : Prop :=
  ∃ fault, stream.advance = .error fault ∧ error = .lexical fault ∧ after = stream

namespace Parser

variable {α β : Type}

/-- A parser fails at a stream with an error, and leaves another stream. -/
def Fails (parser : Parser α) (stream : Stream) (error : ParseError) (after : Stream) : Prop :=
  parser.run stream = (.error error, after)

variable {stream after : Stream} {error : ParseError}

theorem not_fails_pure {value : α} : ¬ (pure value : Parser α).Fails stream error after := by
  rintro ⟨⟩

theorem fails_fail {other : ParseError} : (fail other : Parser α).Fails stream error after ↔
    error = other ∧ after = stream := by
  constructor
  · rintro ⟨⟩
    exact ⟨rfl, rfl⟩
  · rintro ⟨rfl, rfl⟩
    rfl

theorem fails_unexpected {expected : Expected} :
    (unexpected expected : Parser α).Fails stream error after ↔
      error = stream.unexpected expected ∧ after = stream :=
  fails_fail

theorem fails_bind {parser : Parser α} {next : α → Parser β} :
    (parser >>= next).Fails stream error after ↔
      parser.Fails stream error after ∨
        ∃ value between, parser.Yields stream value between ∧
          (next value).Fails between error after := by
  simp only [Fails, Yields, run_bind]
  constructor
  · intro ends
    split at ends
    · next value between started => exact .inr ⟨value, between, started, ends⟩
    · next fault between started =>
      cases ends
      exact .inl started
  · rintro (failed | ⟨value, between, started, ends⟩)
    · rw [failed]
    · rw [started]
      exact ends

theorem fails_bind_pure {parser : Parser α} {result : α → β} :
    (parser >>= fun value => pure (result value)).Fails stream error after ↔
      parser.Fails stream error after := by
  simp [fails_bind, not_fails_pure]

theorem fails_discard {parser : Parser α} :
    (discard parser).Fails stream error after ↔ parser.Fails stream error after :=
  fails_bind_pure

theorem fails_within {parser : List Token → Parser α} :
    (within parser).Fails stream error after ↔ (parser stream.rest).Fails stream error after :=
  Iff.rfl

theorem fails_kind_bind {next : Kind → Parser α} : (kind >>= next).Fails stream error after ↔
    (next stream.current.kind).Fails stream error after :=
  Iff.rfl

theorem fails_current_bind {next : Token → Parser α} : (current >>= next).Fails stream error after ↔
    (next stream.current).Fails stream error after :=
  Iff.rfl

theorem fails_previous_bind {next : Option Kind → Parser α} :
    (previous >>= next).Fails stream error after ↔
      (next stream.previous).Fails stream error after :=
  Iff.rfl

theorem fails_advance : advance.Fails stream error after ↔ stream.Stuck error after := by
  rw [Fails, run, advance]
  split
  · next later moved =>
    constructor
    · rintro ⟨⟩
    · rintro ⟨fault, stop, _⟩
      cases moved.symm.trans stop
  · next fault stop =>
    constructor
    · rintro ⟨⟩
      exact ⟨fault, stop, rfl, rfl⟩
    · rintro ⟨fault', stop', rfl, rfl⟩
      cases stop.symm.trans stop'
      rfl

theorem fails_expectOneOf {kinds : List Kind} : (expectOneOf kinds).Fails stream error after ↔
    (stream.current.kind ∈ kinds ∧ stream.Stuck error after) ∨
      (stream.current.kind ∉ kinds ∧ error = stream.unexpected (.anyOf kinds) ∧
        after = stream) := by
  rw [expectOneOf, fails_kind_bind]
  split
  · next listed => simp [listed, fails_advance]
  · next other => simp [other, fails_unexpected]

section Steps

theorem fails_step {parser : Parser α} {next : α → Parser β} {value : α} {ready : Prop}
    (yields : ∀ found later, parser.Yields stream found later ↔
      ready ∧ found = value ∧ stream.advance = .ok later) :
    (parser >>= next).Fails stream error after ↔
      parser.Fails stream error after ∨
        ready ∧ ∃ later, stream.advance = .ok later ∧ (next value).Fails later error after := by
  rw [fails_bind]
  simp only [yields]
  constructor
  · rintro (failed | ⟨_, later, ⟨here, rfl, moved⟩, ends⟩)
    · exact .inl failed
    · exact .inr ⟨here, later, moved, ends⟩
  · rintro (failed | ⟨here, later, moved, ends⟩)
    · exact .inl failed
    · exact .inr ⟨_, later, ⟨here, rfl, moved⟩, ends⟩

theorem fails_advance_bind {next : Token → Parser α} :
    (advance >>= next).Fails stream error after ↔
      stream.Stuck error after ∨
        ∃ later, stream.advance = .ok later ∧ (next stream.current).Fails later error after := by
  have yields : ∀ found later, advance.Yields stream found later ↔
      True ∧ found = stream.current ∧ stream.advance = .ok later := by simp
  rw [fails_step yields, fails_advance, true_and]

theorem fails_discard_bind {next : Unit → Parser α} :
    (discard advance >>= next).Fails stream error after ↔
      stream.Stuck error after ∨
        ∃ later, stream.advance = .ok later ∧ (next ()).Fails later error after := by
  have yields : ∀ found later, (discard advance).Yields stream found later ↔
      True ∧ found = () ∧ stream.advance = .ok later := by simp
  rw [fails_step yields, fails_discard, fails_advance, true_and]

variable {wanted : Kind}

theorem fails_expect_bind {next : Token → Parser α} :
    (expect wanted >>= next).Fails stream error after ↔
      (expect wanted).Fails stream error after ∨ stream.current.kind = wanted ∧
        ∃ later, stream.advance = .ok later ∧ (next stream.current).Fails later error after :=
  fails_step fun _ _ => yields_expect

theorem fails_discard_expect_bind {next : Unit → Parser α} :
    (discard (expect wanted) >>= next).Fails stream error after ↔
      (expect wanted).Fails stream error after ∨ stream.current.kind = wanted ∧
        ∃ later, stream.advance = .ok later ∧ (next ()).Fails later error after := by
  have yields : ∀ found later, (discard (expect wanted)).Yields stream found later ↔
      stream.current.kind = wanted ∧ found = () ∧ stream.advance = .ok later := by simp
  rw [fails_step yields, fails_discard]

theorem fails_identifier : identifier.Fails stream error after ↔
    (expect .identifier).Fails stream error after :=
  fails_bind_pure

theorem fails_identifier_bind {next : String → Parser α} :
    (identifier >>= next).Fails stream error after ↔
      (expect .identifier).Fails stream error after ∨ stream.current.kind = .identifier ∧
        ∃ later, stream.advance = .ok later ∧
          (next stream.current.text).Fails later error after := by
  rw [fails_step fun _ _ => yields_identifier, fails_identifier]

end Steps

end Parser

section Places

/-- Where an error is reported. A rule that cannot be read stands nowhere in a source. -/
def LexError.pos? : LexError → Option Nat
  | noMatch _ pos | unclassified _ pos => some pos
  | invalidRule _ => none

def ParseError.pos? : ParseError → Option Nat
  | lexical error => error.pos?
  | unexpected _ _ pos | missingThen _ pos | notCallable pos | invalidLiteral _ pos => some pos

def ParseError.Refuses (token : Token) : ParseError → Prop
  | unexpected _ found pos | missingThen found pos => found = token.kind ∧ pos = token.pos
  | notCallable pos => token.kind = .leftParen ∧ pos = token.pos
  | lexical _ | invalidLiteral .. => False

def Token.Misread (token : Token) (error : ParseError) : Prop :=
  error = .invalidLiteral token.text token.pos ∨
    error.pos? = some token.pos ∧ token.kind = .typeWord ∧ NumberType.ofName? token.text = none

/-- Where a parser that began at a stream has failed: the tokens in front of the error, and the
stream that is left. -/
inductive Reaches : Stream → List Token → ParseError → Stream → Prop
  | refused {stream : Stream} {error : ParseError} (here : error.Refuses stream.current) :
      Reaches stream [] error stream
  | misread {stream next : Stream} {error : ParseError} (moved : stream.advance = .ok next)
      (here : stream.current.Misread error) : Reaches stream [] error next
  | stuck {stream : Stream} {fault : LexError} (stop : stream.advance = .error fault) :
      Reaches stream [stream.current] (.lexical fault) stream
  | step {stream next after : Stream} {tokens : List Token} {error : ParseError}
      (moved : stream.advance = .ok next) (later : Reaches next tokens error after) :
      Reaches stream (stream.current :: tokens) error after

theorem Reaches.behind {stream between after : Stream} {front tokens : List Token}
    {error : ParseError} (passed : stream.Passes front between)
    (later : Reaches between tokens error after) : Reaches stream (front ++ tokens) error after := by
  induction passed with
  | here => exact later
  | step moved _ ih => exact .step moved (ih later)

end Places

section Viable

def Completable (form : List Token → Prop) (tokens : List Token) : Prop :=
  ∃ back, (∀ token ∈ back, token.Written) ∧ form (tokens ++ back)

variable {form form' : List Token → Prop} {tokens : List Token}

theorem Completable.now (complete : form tokens) : Completable form tokens :=
  ⟨[], fun _ member => absurd member List.not_mem_nil, by rwa [List.append_nil]⟩

theorem Completable.append {back : List Token} (written : ∀ token ∈ back, token.Written)
    (complete : Completable form (tokens ++ back)) : Completable form tokens := by
  rcases complete with ⟨more, written', complete⟩
  rw [List.append_assoc] at complete
  exact ⟨back ++ more, List.forall_mem_append.mpr ⟨written, written'⟩, complete⟩

theorem Completable.word {word : Token} (written : word.Written)
    (complete : Completable form (tokens ++ [word])) : Completable form tokens :=
  complete.append fun _ member => List.mem_singleton.mp member ▸ written

theorem Completable.in_front (complete : Completable (fun rest => form (tokens ++ rest)) []) :
    Completable form tokens := by
  rcases complete with ⟨back, written, complete⟩
  exact ⟨back, written, complete⟩

theorem Completable.mono (completable : Completable form tokens)
    (weaker : ∀ tokens, form tokens → Completable form' tokens) : Completable form' tokens := by
  rcases completable with ⟨back, written, complete⟩
  exact (weaker _ complete).append written

/-- A token whose text stands for something: a number can be read, and a type has this name. -/
structure Token.Sensible (token : Token) : Prop where
  reads : token.Reads
  named : token.kind = .typeWord → (NumberType.ofName? token.text).isSome

theorem Token.Written.sensible {word : Token} (written : word.Written) : word.Sensible :=
  ⟨written.reads, written.known.named⟩

/-- The tokens in front of a failure can be completed, as far as they are sensible. -/
def Viable (form : List Token → Prop) (stream : Stream) (error : ParseError) (after : Stream) :
    Prop :=
  ∃ front, Reaches stream front error after ∧
    ((∀ token ∈ front, token.Sensible) → Completable form front)

namespace Viable

variable {stream between next after : Stream} {error : ParseError}

theorem refused (here : error.Refuses stream.current) (complete : Completable form []) :
    Viable form stream error stream :=
  ⟨[], .refused here, fun _ => complete⟩

theorem misread (moved : stream.advance = .ok after) (here : stream.current.Misread error)
    (complete : Completable form []) : Viable form stream error after :=
  ⟨[], .misread moved here, fun _ => complete⟩

theorem stuck (stop : stream.Stuck error after)
    (complete : stream.current.Sensible → Completable form [stream.current]) :
    Viable form stream error after := by
  rcases stop with ⟨fault, stop, rfl, rfl⟩
  exact ⟨_, .stuck stop, fun sensible => complete (sensible _ List.mem_cons_self)⟩

theorem behind {front : List Token} (passed : stream.Passes front between)
    (later : Viable (fun tokens => form (front ++ tokens)) between error after) :
    Viable form stream error after := by
  rcases later with ⟨tokens, reaches, complete⟩
  refine ⟨front ++ tokens, reaches.behind passed, ?_⟩
  intro sensible
  rcases complete (List.forall_mem_append.mp sensible).2 with ⟨back, written, complete⟩
  exact ⟨back, written, by rwa [List.append_assoc]⟩

theorem step (moved : stream.advance = .ok next)
    (later : Viable (fun tokens => form (stream.current :: tokens)) next error after) :
    Viable form stream error after :=
  behind (Stream.passes_current moved) later

theorem mono (viable : Viable form stream error after)
    (weaker : ∀ tokens, form tokens → Completable form' tokens) :
    Viable form' stream error after := by
  rcases viable with ⟨front, reaches, complete⟩
  exact ⟨front, reaches, fun sensible => (complete sensible).mono weaker⟩

theorem expectOneOf {kinds : List Kind} {word : Token} (written : word.Written)
    (listed : word.kind ∈ kinds) (fails : (expectOneOf kinds).Fails stream error after)
    (complete : ∀ token : Token, token.kind ∈ kinds → Completable form [token]) :
    Viable form stream error after := by
  rcases fails_expectOneOf.mp fails with ⟨here, stuck⟩ | ⟨other, rfl, rfl⟩
  · exact .stuck stuck fun _ => complete _ here
  · exact .refused ⟨rfl, rfl⟩ (.word written (complete word listed))

theorem expect {wanted : Kind} {word : Token} (written : word.Written)
    (same : word.kind = wanted) (fails : (expect wanted).Fails stream error after)
    (complete : ∀ token : Token, token.kind = wanted → Completable form [token]) :
    Viable form stream error after := by
  apply expectOneOf written (List.mem_singleton.mpr same) fails
  exact fun token here => complete token (List.mem_singleton.mp here)

end Viable

end Viable

end Calculator

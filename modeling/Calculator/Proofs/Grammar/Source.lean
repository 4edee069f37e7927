import Calculator.Proofs.Grammar.Program
import Calculator.Proofs.Lexer.Splicing

/-!
Sources as programs. A source parses exactly if it can be cut into tokens to its end and these have
the form of a program.
-/

namespace Calculator

open Calculator.Lexer

section Kinds

variable {tokens : List Token}

theorem Separators.kinds (separators : Separators tokens) :
    ∀ token ∈ tokens, token.kind ≠ .endOfInput := by
  intro token member ended
  have separates := separators token member
  rw [ended] at separates
  exact absurd separates (by decide)

theorem Level.Stands.kinds {level : Level} {tree : Expr} (stands : level.Stands tokens tree) :
    ∀ token ∈ tokens, token.kind ≠ .endOfInput :=
  fun token member => (stands.1.kinds token member).2

theorem Names.kinds {name : String} (names : Names tokens name) :
    ∀ token ∈ tokens, token.kind ≠ .endOfInput := by
  cases names with
  | name kind => simp [kind]

theorem Declares.kind {word : Token} {declared : Option NumberType}
    (declares : Declares word declared) : word.kind ≠ .endOfInput := by
  cases declares with
  | set kind => simp [kind]
  | type kind _ => simp [kind]

mutual

theorem StatementForm.kinds {tokens : List Token} {result : Statement} :
    StatementForm tokens result → ∀ token ∈ tokens, token.kind ≠ .endOfInput
  | .assign declares named assigns stands => by
      simp only [List.forall_mem_cons]
      exact ⟨declares.kind, by simp [named], by simp [assigns], stands.kinds⟩
  | .define defines named opens names closes block => by
      have params := names.all (fun _ kind => by simp [kind]) fun _ _ name => name.kinds
      simp only [List.forall_mem_cons, List.forall_mem_append]
      exact ⟨by simp [defines], by simp [named], by simp [opens], params, by simp [closes],
        block.kinds⟩
  | .block block => block.kinds
  | .ifThen kind stands goesOn form => by
      simp only [List.forall_mem_cons, List.forall_mem_append]
      exact ⟨by simp [kind], stands.kinds, by simp [goesOn], form.kinds⟩
  | .ifElse kind stands goesOn form _ otherwise form' => by
      simp only [List.forall_mem_cons, List.forall_mem_append]
      exact ⟨by simp [kind], stands.kinds, by simp [goesOn], form.kinds, by simp [otherwise],
        form'.kinds⟩
  | .print kind stands => List.forall_mem_cons.mpr ⟨by simp [kind], stands.kinds⟩
  | .reset kind => by simp [kind]
  | .expression stands => stands.kinds

theorem BlockForm.kinds {tokens : List Token} {body : Block} :
    BlockForm tokens body → ∀ token ∈ tokens, token.kind ≠ .endOfInput
  | .braces opens separators body closes => by
      simp only [List.forall_mem_cons, List.forall_mem_append]
      exact ⟨by simp [opens], separators.kinds, body.kinds, by simp [closes], by simp⟩

theorem BodyForm.kinds {tokens : List Token} {statements : List Statement} :
    BodyForm tokens statements → ∀ token ∈ tokens, token.kind ≠ .endOfInput
  | .nil => fun _ member => absurd member List.not_mem_nil
  | .cons form separators _ body => by
      simp only [List.forall_mem_append]
      exact ⟨form.kinds, separators.kinds, body.kinds⟩

end

theorem ProgramForm.kinds {statements : List Statement} (form : ProgramForm tokens statements) :
    ∀ token ∈ tokens, token.kind ≠ .endOfInput := by
  rcases form with ⟨gap, rest, rfl, separators, body⟩
  exact List.forall_mem_append.mpr ⟨separators.kinds, body.kinds⟩

theorem Lexer.Lexes.kinds {skips : Bool} {scan : Scan} {ending : Except LexError Nat}
    (lexes : Lexes skips scan tokens ending) : ∀ token ∈ tokens, token.kind ≠ .endOfInput := by
  have regular : ∀ rule ∈ standardRules, rule.kind ≠ .endOfInput := by decide
  induction lexes with
  | ended => exact fun _ member => absurd member List.not_mem_nil
  | stuck => exact fun _ member => absurd member List.not_mem_nil
  | word _ _ known _ ih =>
    rcases classify_mem known with ⟨rule, listed, same⟩
    exact List.forall_mem_cons.mpr ⟨same ▸ regular rule listed, ih⟩

end Kinds

section Ends

theorem Stream.Passes.to_end {passed : List Token} {stream after : Stream}
    (passes : stream.Passes passed after) (ended : after.current.kind = .endOfInput)
    (inner : ∀ token ∈ passed, token.kind ≠ .endOfInput)
    (ahead : ∀ token ∈ stream.ahead, token.kind ≠ .endOfInput)
    (more : stream.current.kind ≠ .endOfInput) :
    passed = stream.current :: stream.ahead ∧ ∃ pos, stream.ending = .ok pos := by
  -- Induction on the passed tokens; the end token is the first that is not passed.
  induction passes with
  | here stream => exact absurd ended more
  | @step stream next after tokens moved passes ih =>
    have later := (List.forall_mem_cons.mp inner).2
    rcases stream with ⟨current, tail, ending, previous⟩
    cases tail with
    | cons token tail =>
      cases moved
      rcases List.forall_mem_cons.mp ahead with ⟨here, ahead⟩
      rcases ih ended later ahead here with ⟨same, finished⟩
      exact ⟨congrArg _ same, finished⟩
    | nil =>
      cases ending with
      | error error => cases moved
      | ok pos =>
        cases moved
        refine ⟨?_, pos, rfl⟩
        cases passes with
        | here => rfl
        | step moved passes => exact absurd rfl (later _ List.mem_cons_self)

variable {tokens : List Token} {ending : Except LexError Nat} {stream : Stream}
  {program : Program}

theorem yields_of_parsed (parsed : (Parser.program.run stream).1 = .ok program) :
    ∃ after passed, stream.Passes passed after ∧ after.current.kind = .endOfInput ∧
      ProgramForm passed program := by
  have yields : Parser.program.Yields stream program (Parser.program.run stream).2 := by
    rw [Parser.Yields, ← parsed]
  rcases list_sound (fun later _ => statement_sound later) yields with ⟨passed, passes, form, ended⟩
  exact ⟨_, passed, passes, ended, form⟩

/-- The parser takes tokens for a program exactly if they have its form and nothing is wrong behind
them. -/
theorem programForm_iff (kinds : ∀ token ∈ tokens, token.kind ≠ .endOfInput)
    (begins : Stream.ofTokens tokens ending = .ok stream) :
    (Parser.program.run stream).1 = .ok program ↔
      (∃ pos, ending = .ok pos) ∧ ProgramForm tokens program := by
  constructor
  · intro parsed
    rcases yields_of_parsed parsed with ⟨after, passed, passes, ended, form⟩
    cases tokens with
    | nil =>
      cases ending with
      | error error => cases begins
      | ok pos =>
        cases begins
        cases passes with
        | here => exact ⟨⟨pos, rfl⟩, form⟩
        | step moved passes => exact absurd rfl (form.kinds _ List.mem_cons_self)
    | cons token ahead =>
      cases begins
      rcases List.forall_mem_cons.mp kinds with ⟨more, kinds⟩
      rcases passes.to_end ended form.kinds kinds more with ⟨rfl, finished⟩
      exact ⟨finished, form⟩
  · rintro ⟨⟨pos, rfl⟩, form⟩
    cases tokens with
    | nil =>
      cases begins
      exact congrArg Prod.fst (program_complete (.here _) rfl form)
    | cons token ahead =>
      cases begins
      rcases Stream.passes_all token ahead none pos with ⟨after, passes, ended⟩
      exact congrArg Prod.fst (program_complete passes ended form)

theorem ProgramForm.unique {other : Program} (form : ProgramForm tokens program)
    (form' : ProgramForm tokens other) : program = other := by
  have begins : ∃ stream, Stream.ofTokens tokens (.ok 0) = .ok stream := by
    cases tokens with
    | nil => exact ⟨_, rfl⟩
    | cons token ahead => exact ⟨_, rfl⟩
  rcases begins with ⟨stream, begins⟩
  have parsed := (programForm_iff form.kinds begins).mpr ⟨⟨0, rfl⟩, form⟩
  have parsed' := (programForm_iff form.kinds begins).mpr ⟨⟨0, rfl⟩, form'⟩
  exact Except.ok.inj (parsed.symm.trans parsed')

/-- A source parses to a program exactly if its tokens have the form of the program. -/
theorem parse_ok_iff {skips : Bool} {source : String} :
    Program.parse (standard skips) source = .ok program ↔
      ∃ tokens pos, Lexes skips (.start source) tokens (.ok pos) ∧ ProgramForm tokens program := by
  have lexes := exists_lexes skips (.start source)
  rw [Program.parse, Stream.ofSource]
  generalize (standard skips).tokens (.start source) = cut at lexes ⊢
  rcases cut with ⟨tokens, ending⟩
  have unique : ∀ others pos, Lexes skips (.start source) others (.ok pos) →
      tokens = others ∧ ending = .ok pos := by
    intro others pos lexes'
    exact Prod.mk.inj (lexes.tokens_eq.symm.trans lexes'.tokens_eq)
  cases begins : Stream.ofTokens tokens ending with
  | error error =>
    simp only [begins]
    constructor
    · rintro ⟨⟩
    · rintro ⟨others, pos, lexes', form⟩
      rcases unique others pos lexes' with ⟨rfl, rfl⟩
      cases tokens <;> cases begins
  | ok stream =>
    simp only [begins]
    rw [programForm_iff lexes.kinds begins]
    constructor
    · rintro ⟨⟨pos, rfl⟩, form⟩
      exact ⟨tokens, pos, lexes, form⟩
    · rintro ⟨others, pos, lexes', form⟩
      rcases unique others pos lexes' with ⟨rfl, rfl⟩
      exact ⟨⟨pos, rfl⟩, form⟩

variable {move : Nat → Nat}

theorem kinds_relocate :
    (∀ token ∈ tokens.map (·.relocate move), token.kind ≠ .endOfInput) ↔
      ∀ token ∈ tokens, token.kind ≠ .endOfInput := by
  simp

theorem programForm_relocate_iff {moved : Program} :
    ProgramForm (tokens.map (·.relocate move)) moved ↔
      ∃ program, ProgramForm tokens program ∧ Program.relocate move program = moved := by
  have begins : ∃ stream, Stream.ofTokens tokens (.ok 0) = .ok stream ∧
      Stream.ofTokens (tokens.map (·.relocate move)) (.ok (move 0)) =
        .ok (stream.relocate move) := by
    cases tokens with
    | nil => exact ⟨_, rfl, rfl⟩
    | cons token ahead => exact ⟨_, rfl, rfl⟩
  rcases begins with ⟨stream, begins, begins'⟩
  have moves := (Parser.moves_program : Parser.Moves move _ _ _) stream
  constructor
  · intro form
    have kinds := form.kinds
    have parsed := (programForm_iff kinds begins').mpr ⟨⟨_, rfl⟩, form⟩
    rw [moves] at parsed
    cases found : Parser.program.run stream with
    | mk result after =>
      rw [found] at parsed
      cases result with
      | error error => cases parsed
      | ok program =>
        cases parsed
        have parsed : (Parser.program.run stream).1 = .ok program := by rw [found]
        exact ⟨program, ((programForm_iff (kinds_relocate.mp kinds) begins).mp parsed).2, rfl⟩
  · rintro ⟨program, form, rfl⟩
    have kinds := form.kinds
    have parsed := (programForm_iff kinds begins).mpr ⟨⟨_, rfl⟩, form⟩
    have parsed' : (Parser.program.run (stream.relocate move)).1 =
        .ok (Program.relocate move program) := by
      rw [moves]
      generalize Parser.program.run stream = found at parsed ⊢
      rcases found with ⟨result, after⟩
      obtain rfl : result = .ok program := parsed
      rfl
    exact ((programForm_iff (kinds_relocate.mpr kinds) begins').mp parsed').2

end Ends

end Calculator

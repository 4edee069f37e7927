import Calculator.Grammar.Parser

/-!
When a parser succeeds, and with what: one rule for each way in which parsers are put together. What
a parser has taken are the tokens that its stream passes.
-/

namespace Calculator

/-- The tokens between two places of a stream. -/
inductive Stream.Passes : Stream → List Token → Stream → Prop
  | here (stream : Stream) : Passes stream [] stream
  | step {stream next after : Stream} {tokens : List Token} (moved : stream.advance = .ok next)
      (passes : Passes next tokens after) : Passes stream (stream.current :: tokens) after

namespace Stream

theorem passes_current {stream next : Stream} (moved : stream.advance = .ok next) :
    stream.Passes [stream.current] next :=
  .step moved (.here next)

theorem passes_nil {stream after : Stream} : stream.Passes [] after ↔ after = stream := by
  constructor
  · intro passes
    cases passes
    rfl
  · rintro rfl
    exact .here after

theorem passes_cons {stream after : Stream} {token : Token} {tokens : List Token} :
    stream.Passes (token :: tokens) after ↔
      stream.current = token ∧ ∃ next, stream.advance = .ok next ∧ next.Passes tokens after := by
  constructor
  · intro passes
    cases passes with
    | step moved passes => exact ⟨rfl, _, moved, passes⟩
  · rintro ⟨rfl, next, moved, passes⟩
    exact .step moved passes

theorem passes_append {stream after : Stream} {front back : List Token} :
    stream.Passes (front ++ back) after ↔
      ∃ between, stream.Passes front between ∧ between.Passes back after := by
  induction front generalizing stream with
  | nil => simp [passes_nil]
  | cons token front ih =>
    simp only [List.cons_append, passes_cons, ih]
    constructor
    · rintro ⟨here, next, moved, between, first, second⟩
      exact ⟨between, ⟨here, next, moved, first⟩, second⟩
    · rintro ⟨between, ⟨here, next, moved, first⟩, second⟩
      exact ⟨here, next, moved, between, first, second⟩

end Stream

namespace Parser

variable {α β : Type}

/-- A parser succeeds at a stream with a value, and leaves another stream. -/
def Yields (parser : Parser α) (stream : Stream) (value : α) (after : Stream) : Prop :=
  parser.run stream = (.ok value, after)

variable {stream after : Stream} {value other : α} {result : β}

theorem Yields.unique {parser : Parser α} {last : Stream}
    (yields : parser.Yields stream value after) (yields' : parser.Yields stream other last) :
    value = other ∧ after = last := by
  have same := yields.symm.trans yields'
  cases same
  exact ⟨rfl, rfl⟩

@[simp] theorem yields_pure : (pure value : Parser α).Yields stream other after ↔
    other = value ∧ after = stream := by
  constructor
  · rintro ⟨⟩
    exact ⟨rfl, rfl⟩
  · rintro ⟨rfl, rfl⟩
    rfl

@[simp] theorem yields_fail {error : ParseError} :
    ¬ (fail error : Parser α).Yields stream value after := by
  rintro ⟨⟩

@[simp] theorem yields_unexpected {expected : Expected} :
    ¬ (unexpected expected : Parser α).Yields stream value after := by
  rintro ⟨⟩

@[simp] theorem yields_bind {parser : Parser α} {next : α → Parser β} :
    (parser >>= next).Yields stream result after ↔
      ∃ value between, parser.Yields stream value between ∧
        (next value).Yields between result after := by
  simp only [Yields, run_bind]
  constructor
  · intro ends
    split at ends
    · next value between started => exact ⟨value, between, started, ends⟩
    · cases ends
  · rintro ⟨value, between, started, ends⟩
    rw [started]
    exact ends

@[simp] theorem yields_discard {parser : Parser α} {done : Unit} :
    (discard parser).Yields stream done after ↔ ∃ value, parser.Yields stream value after := by
  constructor
  · intro ends
    obtain ⟨value, between, started, finished⟩ := yields_bind.mp ends
    obtain ⟨_, rfl⟩ := yields_pure.mp finished
    exact ⟨value, started⟩
  · rintro ⟨value, ends⟩
    exact yields_bind.mpr ⟨value, after, ends, yields_pure.mpr ⟨rfl, rfl⟩⟩

@[simp] theorem yields_ite {condition : Prop} [Decidable condition] {left right : Parser α} :
    (if condition then left else right).Yields stream value after ↔
      (condition ∧ left.Yields stream value after) ∨
        (¬ condition ∧ right.Yields stream value after) := by
  split <;> simp [*]

@[simp] theorem yields_kind {found : Kind} :
    kind.Yields stream found after ↔ found = stream.current.kind ∧ after = stream :=
  yields_pure

@[simp] theorem yields_current {token : Token} :
    current.Yields stream token after ↔ token = stream.current ∧ after = stream :=
  yields_pure

@[simp] theorem yields_previous {found : Option Kind} :
    previous.Yields stream found after ↔ found = stream.previous ∧ after = stream :=
  yields_pure

@[simp] theorem yields_advance {token : Token} :
    advance.Yields stream token after ↔ token = stream.current ∧ stream.advance = .ok after := by
  rw [Yields, run, advance]
  split
  · next next moved =>
      rw [moved]
      constructor
      · rintro ⟨⟩
        exact ⟨rfl, rfl⟩
      · rintro ⟨rfl, ⟨⟩⟩
        rfl
  · next error moved =>
      rw [moved]
      constructor
      · rintro ⟨⟩
      · rintro ⟨_, ⟨⟩⟩

@[simp] theorem yields_expectOneOf {kinds : List Kind} {token : Token} :
    (expectOneOf kinds).Yields stream token after ↔
      stream.current.kind ∈ kinds ∧ token = stream.current ∧ stream.advance = .ok after := by
  simp [expectOneOf, and_assoc]

@[simp] theorem yields_expect {wanted : Kind} {token : Token} :
    (expect wanted).Yields stream token after ↔
      stream.current.kind = wanted ∧ token = stream.current ∧ stream.advance = .ok after := by
  simp [expect]

@[simp] theorem yields_identifier {name : String} :
    identifier.Yields stream name after ↔
      stream.current.kind = .identifier ∧ name = stream.current.text ∧
        stream.advance = .ok after := by
  simp only [identifier, yields_bind, yields_expect, yields_pure]
  constructor
  · rintro ⟨token, between, ⟨wanted, rfl, moved⟩, rfl, rfl⟩
    exact ⟨wanted, rfl, moved⟩
  · rintro ⟨wanted, rfl, moved⟩
    exact ⟨stream.current, after, ⟨wanted, rfl, moved⟩, rfl, rfl⟩

end Parser

end Calculator

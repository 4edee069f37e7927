import Calculator.Grammar.Statement
import Calculator.Proofs.Grammar.Yields

/-!
How the parsers recur. Each recursion follows the tokens that were left when it began, and stops in
a makeshift way when these are used up. For a parser that takes a token in each round this never
happens: the recursion satisfies the equation that it would satisfy without a bound.
-/

namespace Calculator

theorem Stream.size_advance_le {stream next : Stream} (moved : stream.advance = .ok next) :
    next.size ≤ stream.size := by
  by_cases ended : stream.current.kind = .endOfInput
  · obtain ⟨current, ahead, ending, previous⟩ := stream
    cases ahead with
    | cons token ahead =>
      cases moved
      simp only [Stream.size, List.length_cons]
      split <;> omega
    | nil =>
      cases ending with
      | ok pos =>
        cases moved
        simp [Stream.size, Token.atEnd]
      | error error => cases moved
  · exact Nat.le_of_lt (Stream.size_advance_lt moved ended)

theorem Stream.atEnd_of_size {stream : Stream} (used : stream.size = 0) :
    stream.current.kind = .endOfInput := by
  rw [Stream.size] at used
  split at used
  · assumption
  · omega

namespace Parser

variable {α β : Type}

theorem run_kind_bind (next : Kind → Parser α) (stream : Stream) :
    (kind >>= next).run stream = (next stream.current.kind).run stream := rfl

theorem run_within (parser : List Token → Parser α) (stream : Stream) :
    (within parser).run stream = (parser stream.rest).run stream := rfl

/-- Two parsers do the same at a stream. Where they succeed they take some number of tokens at
least. -/
structure Agree (least : Nat) (stream : Stream) (left right : Parser α) : Prop where
  same : left.run stream = right.run stream
  takes : ∀ value after, left.run stream = (.ok value, after) → after.size + least ≤ stream.size

theorem Agree.fewer {least fewer : Nat} {stream : Stream} {left right : Parser α}
    (agree : Agree least stream left right) (le : fewer ≤ least) :
    Agree fewer stream left right := by
  refine ⟨agree.same, ?_⟩
  intro value after ends
  have taken := agree.takes value after ends
  omega

theorem Agree.symm {least : Nat} {stream : Stream} {left right : Parser α}
    (agree : Agree least stream left right) : Agree least stream right left := by
  refine ⟨agree.same.symm, ?_⟩
  rw [← agree.same]
  exact agree.takes

theorem agree_pure (value : α) (stream : Stream) :
    Agree 0 stream (pure value) (pure value) := by
  refine ⟨rfl, ?_⟩
  rintro _ _ ⟨⟩
  exact Nat.le_refl _

theorem agree_fail (least : Nat) (error : ParseError) (stream : Stream) :
    Agree least stream (fail error : Parser α) (fail error) := by
  refine ⟨rfl, ?_⟩
  rintro _ _ ⟨⟩

theorem agree_unexpected (least : Nat) (expected : Expected) (stream : Stream) :
    Agree least stream (unexpected expected : Parser α) (unexpected expected) := by
  refine ⟨rfl, ?_⟩
  rintro _ _ ⟨⟩

theorem agree_kind {least : Nat} {stream : Stream} {left right : Kind → Parser α}
    (agree : Agree least stream (left stream.current.kind) (right stream.current.kind)) :
    Agree least stream (kind >>= left) (kind >>= right) :=
  ⟨agree.same, agree.takes⟩

theorem agree_current {least : Nat} {stream : Stream} {left right : Token → Parser α}
    (agree : Agree least stream (left stream.current) (right stream.current)) :
    Agree least stream (current >>= left) (current >>= right) :=
  ⟨agree.same, agree.takes⟩

theorem agree_previous {least : Nat} {stream : Stream} {left right : Option Kind → Parser α}
    (agree : Agree least stream (left stream.previous) (right stream.previous)) :
    Agree least stream (previous >>= left) (previous >>= right) :=
  ⟨agree.same, agree.takes⟩

theorem agree_bind {least : Nat} {stream : Stream} {left right : Parser α}
    {next next' : α → Parser β} (agree : Agree least stream left right)
    (rest : ∀ value after, after.size + least ≤ stream.size →
      Agree 0 after (next value) (next' value)) :
    Agree least stream (left >>= next) (right >>= next') := by
  constructor
  · rw [run_bind, run_bind, ← agree.same]
    split
    · next value after ends => exact (rest value after (agree.takes value after ends)).same
    · rfl
  · intro value after ends
    rw [run_bind] at ends
    split at ends
    · next middle between started =>
        have begun := agree.takes middle between started
        have ended := (rest middle between begun).takes value after ends
        omega
    · cases ends

theorem agree_then {least : Nat} {stream : Stream} {left right : Parser α}
    {next next' : α → Parser β} (agree : Agree least stream left right)
    (rest : ∀ value after, after.size + least ≤ stream.size →
      Agree 0 after (next value) (next' value)) :
    Agree 0 stream (left >>= next) (right >>= next') :=
  (agree_bind agree rest).fewer (Nat.zero_le least)

theorem agree_discard {least : Nat} {stream : Stream} {left right : Parser α}
    (agree : Agree least stream left right) :
    Agree least stream (discard left) (discard right) := by
  refine agree_bind agree ?_
  intro _ after _
  exact agree_pure () after

theorem agree_advance {stream : Stream} (more : stream.current.kind ≠ .endOfInput) :
    Agree 1 stream advance advance := by
  refine ⟨rfl, ?_⟩
  intro token after ends
  rw [run, advance] at ends
  split at ends
  · next next moved =>
      cases ends
      have smaller := Stream.size_advance_lt moved more
      omega
  · cases ends

theorem agree_expectOneOf {kinds : List Kind} (more : .endOfInput ∉ kinds) (stream : Stream) :
    Agree 1 stream (expectOneOf kinds) (expectOneOf kinds) := by
  refine agree_kind ?_
  split
  · next wanted =>
      refine agree_advance ?_
      intro ended
      exact more (ended ▸ wanted)
  · exact agree_unexpected 1 _ stream

theorem Agree.error_of_size {stream : Stream} {left right : Parser α}
    (agree : Agree 1 stream left right) (used : stream.size = 0) :
    ∃ error after, left.run stream = (.error error, after) := by
  cases ends : left.run stream with
  | mk result after =>
    cases result with
    | error error => exact ⟨error, after, rfl⟩
    | ok value =>
      have taken := agree.takes value after ends
      omega

/-- `round` is a parser up to the point where it recurs. -/
structure Unfolds (parser : List Token → Parser α) (round : Parser α → Parser α) : Prop where
  cons : ∀ token room, parser (token :: room) = round (parser room)
  nil : ∀ stream rest, stream.size = 0 → (parser []).run stream = (round rest).run stream

theorem Unfolds.run_eq {parser : List Token → Parser α} {round : Parser α → Parser α}
    (unfolds : Unfolds parser round) (room : List Token) (stream : Stream)
    (enough : stream.size ≤ room.length) :
    (parser room).run stream = (round (parser room.tail)).run stream := by
  cases room with
  | nil => exact unfolds.nil stream _ (Nat.le_zero.mp enough)
  | cons token room => rw [unfolds.cons, List.tail_cons]

theorem Agree.of_run {least : Nat} {stream : Stream} {left left' right right' : Parser α}
    (agree : Agree least stream left right) (same : left'.run stream = left.run stream)
    (same' : right'.run stream = right.run stream) : Agree least stream left' right' := by
  constructor
  · rw [same, same', agree.same]
  · rw [same]
    exact agree.takes

variable {least : Nat} {left right : List Token → Parser α}
  {leftRound rightRound : Parser α → Parser α}

/-- Two recursions agree as long as one round of them agrees whenever what follows it agrees. -/
theorem agree_rooms {bound : Nat} (unfolds : Unfolds left leftRound)
    (unfolds' : Unfolds right rightRound)
    (rounds : ∀ stream rest rest', stream.size ≤ bound →
      (∀ later, later.size < stream.size → Agree least later rest rest') →
        Agree least stream (leftRound rest) (rightRound rest'))
    (room room' : List Token) (stream : Stream) (small : stream.size ≤ bound)
    (enough : stream.size ≤ room.length) (enough' : stream.size ≤ room'.length) :
    Agree least stream (left room) (right room') := by
  refine Agree.of_run (rounds stream (left room.tail) (right room'.tail) small ?_)
    (unfolds.run_eq room stream enough) (unfolds'.run_eq room' stream enough')
  -- What is left has become less, and so has the room: a round takes a token before it recurs.
  intro later smaller
  refine agree_rooms unfolds unfolds' rounds room.tail room'.tail later (by omega) ?_ ?_
  · rw [List.length_tail]
    omega
  · rw [List.length_tail]
    omega
termination_by stream.size

theorem agree_within {stream : Stream} (unfolds : Unfolds left leftRound)
    (unfolds' : Unfolds right rightRound)
    (rounds : ∀ later rest rest', later.size ≤ stream.size →
      (∀ last, last.size < later.size → Agree least last rest rest') →
        Agree least later (leftRound rest) (rightRound rest')) :
    Agree least stream (within left) (within right) :=
  (agree_rooms unfolds unfolds' rounds stream.rest stream.rest stream (Nat.le_refl _)
    stream.size_le_length_rest stream.size_le_length_rest).of_run (run_within left stream)
      (run_within right stream)

/-- A recursion within the tokens that are left satisfies the equation of an unbounded one. -/
theorem within_eq (least : Nat) {parser : List Token → Parser α} {round : Parser α → Parser α}
    (unfolds : Unfolds parser round)
    (rounds : ∀ stream rest rest',
      (∀ later, later.size < stream.size → Agree least later rest rest') →
        Agree least stream (round rest) (round rest')) :
    within parser = round (within parser) := by
  funext stream
  have rounds' : ∀ bound later rest rest', later.size ≤ bound →
      (∀ last, last.size < later.size → Agree least last rest rest') →
        Agree least later (round rest) (round rest') :=
    fun _ later rest rest' _ agree => rounds later rest rest' agree
  refine (unfolds.run_eq stream.rest stream stream.size_le_length_rest).trans
    (rounds stream _ _ ?_).same
  intro later smaller
  have enough := stream.size_le_length_rest
  refine (agree_rooms unfolds unfolds (rounds' later.size) stream.rest.tail later.rest later
    (Nat.le_refl _) ?_ later.size_le_length_rest).of_run rfl (run_within parser later)
  rw [List.length_tail]
  omega

theorem agree_identifier (stream : Stream) : Agree 1 stream identifier identifier := by
  refine agree_bind (agree_expectOneOf (by decide) stream) ?_
  intro token after _
  exact agree_pure token.text after

section Lists

variable {item item' : Parser α} {closing : Kind} {stream : Stream}

def commaRound (item : Parser α) (closing : Kind) (rest : Parser (List α)) : Parser (List α) := do
  let first ← item
  let separator ← expectOneOf [.comma, closing]
  if separator.kind = closing then return [first]
  else return first :: (← rest)

theorem unfolds_commaItems
    (fails : ∀ stream, stream.size = 0 → ∃ error after, item.run stream = (.error error, after)) :
    Unfolds (commaItems item closing) (commaRound item closing) := by
  refine ⟨fun _ _ => rfl, ?_⟩
  intro stream rest used
  obtain ⟨error, after, failed⟩ := fails stream used
  rw [commaItems, commaRound, run_bind, run_bind, failed]

theorem agree_commaRound (open_ : closing ≠ .endOfInput) (agree : Agree 1 stream item item')
    {rest rest' : Parser (List α)}
    (recur : ∀ later, later.size < stream.size → Agree 1 later rest rest') :
    Agree 1 stream (commaRound item closing rest) (commaRound item' closing rest') := by
  refine agree_bind agree ?_
  intro first after taken
  refine agree_then (agree_expectOneOf (by simp [open_.symm]) after) ?_
  intro separator last taken'
  split
  · exact agree_pure [first] last
  · refine agree_then (recur last (by omega)) ?_
    intro others final _
    exact agree_pure _ final

theorem agree_commaSeparated (open_ : closing ≠ .endOfInput)
    (agree : ∀ later, later.size ≤ stream.size → Agree 1 later item item') :
    Agree 1 stream (commaSeparated item closing) (commaSeparated item' closing) := by
  refine agree_kind ?_
  split
  · next here =>
      refine agree_bind (agree_discard (agree_advance (here ▸ open_))) ?_
      intro _ after _
      exact agree_pure [] after
  · have fails : ∀ later, later.size = 0 → ∃ error after, item.run later = (.error error, after) :=
      fun later used => (agree later (by omega)).error_of_size used
    have fails' : ∀ later, later.size = 0 →
        ∃ error after, item'.run later = (.error error, after) :=
      fun later used => (agree later (by omega)).symm.error_of_size used
    refine agree_within (unfolds_commaItems fails) (unfolds_commaItems fails') ?_
    intro later rest rest' small recur
    exact agree_commaRound open_ (agree later small) recur

theorem commaItems_round (open_ : closing ≠ .endOfInput)
    (takes : ∀ stream, Agree 1 stream item item) :
    within (commaItems item closing) =
      commaRound item closing (within (commaItems item closing)) := by
  refine within_eq 1 (unfolds_commaItems fun stream used => (takes stream).error_of_size used) ?_
  intro stream rest rest' recur
  exact agree_commaRound open_ (takes stream) recur

theorem yields_commaRound {rest : Parser (List α)} {values : List α} {after : Stream} :
    (commaRound item closing rest).Yields stream values after ↔
      ∃ first between, item.Yields stream first between ∧
        (between.current.kind = .comma ∨ between.current.kind = closing) ∧
        ∃ next, between.advance = .ok next ∧
          ((between.current.kind = closing ∧ values = [first] ∧ after = next) ∨
            (between.current.kind ≠ closing ∧
              ∃ others, rest.Yields next others after ∧ values = first :: others)) := by
  simp [commaRound, and_assoc]

theorem yields_commaSeparated {values : List α} {after : Stream} :
    (commaSeparated item closing).Yields stream values after ↔
      (stream.current.kind = closing ∧ stream.advance = .ok after ∧ values = []) ∨
        (stream.current.kind ≠ closing ∧
          (within (commaItems item closing)).Yields stream values after) := by
  simp [commaSeparated, and_assoc, and_comm]

end Lists

end Parser

end Calculator

import Calculator.Proofs.Grammar.Stepwise

/-!
Parsers see no further than the current token. On streams that share their tokens up to some place a
parser does the same as long as it has not passed this place.
-/

namespace Calculator

open Calculator.Parser

/-- Two streams go on with the same tokens, except for the last ones of the first stream, of which
there are as many as are behind. What the other stream has there, and how they end, is open. -/
structure Stream.Shares (behind : Nat) (stream other : Stream) : Prop where
  current : other.current = stream.current
  previous : other.previous = stream.previous
  ahead : ∃ shared rest rest', stream.ahead = shared ++ rest ∧ other.ahead = shared ++ rest' ∧
    rest.length = behind

theorem Stream.Shares.advance {behind : Nat} {stream other next : Stream}
    (shares : stream.Shares behind other) (moved : stream.advance = .ok next)
    (shared : behind < next.size) :
    ∃ next', other.advance = .ok next' ∧ next.Shares behind next' := by
  rcases stream with ⟨current, ahead, ending, previous⟩
  rcases other with ⟨current', ahead', ending', previous'⟩
  rcases shares with ⟨rfl, rfl, front, rest, rest', text, text', count⟩
  obtain rfl : ahead = front ++ rest := text
  obtain rfl : ahead' = front ++ rest' := text'
  cases front with
  | cons token front =>
    cases moved
    exact ⟨_, rfl, rfl, rfl, front, rest, rest', rfl, rfl, count⟩
  | nil =>
    -- The next token would be one that need not be shared, or the end.
    cases rest with
    | cons token rest =>
      cases moved
      simp only [List.length_cons] at count
      have bound := Stream.size_le_length_rest ⟨token, rest, ending, some current'.kind⟩
      simp only [Stream.rest, List.length_cons] at bound
      have small : (Stream.mk token rest ending (some current'.kind)).size ≤ behind := by omega
      exact absurd shared (Nat.not_lt.mpr small)
    | nil =>
      cases ending with
      | ok pos =>
        cases moved
        simp [Stream.size, Token.atEnd] at shared
      | error error => cases moved

namespace Parser

variable {α β : Type} {stream : Stream}

/-- A parser does not see what it has not reached. Unless it has failed to cut the next token, it
does the same on every stream that shares the tokens up to the one at which it ended. -/
structure Steady (parser : Parser α) (stream : Stream) : Prop where
  shrinks : ∀ result after, parser.run stream = (result, after) → after.size ≤ stream.size
  repeats : ∀ result after, parser.run stream = (result, after) →
    (∀ error, result ≠ .error (.lexical error)) → ∀ behind other, stream.Shares behind other →
      behind < after.size → ∃ after', parser.run other = (result, after') ∧
        after.Shares behind after'

theorem steady_pure (value : α) (stream : Stream) : Steady (pure value) stream where
  shrinks := by
    rintro _ _ ⟨⟩
    exact Nat.le_refl _
  repeats := by
    rintro _ _ ⟨⟩ _ behind other shares _
    exact ⟨other, rfl, shares⟩

theorem steady_fail (error : ParseError) (stream : Stream) :
    Steady (fail error : Parser α) stream where
  shrinks := by
    rintro _ _ ⟨⟩
    exact Nat.le_refl _
  repeats := by
    rintro _ _ ⟨⟩ _ behind other shares _
    exact ⟨other, rfl, shares⟩

theorem steady_current (stream : Stream) : Steady current stream where
  shrinks := by
    rintro _ _ ⟨⟩
    exact Nat.le_refl _
  repeats := by
    rintro _ _ ⟨⟩ _ behind other shares _
    refine ⟨other, ?_, shares⟩
    simp only [run, current, shares.current]

theorem steady_previous (stream : Stream) : Steady previous stream where
  shrinks := by
    rintro _ _ ⟨⟩
    exact Nat.le_refl _
  repeats := by
    rintro _ _ ⟨⟩ _ behind other shares _
    refine ⟨other, ?_, shares⟩
    simp only [run, previous, shares.previous]

theorem steady_advance (stream : Stream) : Steady advance stream where
  shrinks := by
    intro result after ends
    rw [run, advance] at ends
    split at ends
    · next next moved =>
      cases ends
      exact Stream.size_advance_le moved
    · cases ends
      exact Nat.le_refl _
  repeats := by
    intro result after ends lexed behind other shares shared
    rw [run, advance] at ends
    split at ends
    · next next moved =>
      cases ends
      rcases shares.advance moved shared with ⟨next', moved', shares'⟩
      refine ⟨next', ?_, shares'⟩
      simp only [run, advance, moved', shares.current]
    · next error moved =>
      cases ends
      exact absurd rfl (lexed error)

theorem steady_bind {parser : Parser α} {next : α → Parser β} (first : Steady parser stream)
    (rest : ∀ value between, parser.Yields stream value between → Steady (next value) between) :
    Steady (parser >>= next) stream where
  shrinks := by
    intro result after ends
    rw [run_bind] at ends
    split at ends
    · next value between started =>
      have begun := first.shrinks _ between started
      have ended := (rest value between started).shrinks result after ends
      omega
    · next error between started =>
      cases ends
      exact first.shrinks _ after started
  repeats := by
    intro result after ends lexed behind other shares shared
    rw [run_bind] at ends
    split at ends
    · next value between started =>
      have steady := rest value between started
      have bound := steady.shrinks result after ends
      rcases first.repeats _ between started (by simp) behind other shares (by omega) with
        ⟨between', started', shares'⟩
      rw [run_bind, started']
      exact steady.repeats result after ends lexed behind between' shares' shared
    · next error between started =>
      cases ends
      have lexed' : ∀ fault, (.error error : Except ParseError α) ≠ .error (.lexical fault) :=
        fun fault same => lexed fault (by cases same; rfl)
      rcases first.repeats _ after started lexed' behind other shares shared with
        ⟨after', started', shares'⟩
      exact ⟨after', by rw [run_bind, started'], shares'⟩

theorem Stepwise.steady {parser : Parser α} (stepwise : Stepwise parser stream) :
    Steady parser stream := by
  -- No step looks beyond the current token, so no sequence of steps does.
  induction stepwise with
  | pure value stream => exact steady_pure value stream
  | fail error stream => exact steady_fail error stream
  | current stream => exact steady_current stream
  | previous stream => exact steady_previous stream
  | advance => exact steady_advance _
  | bind _ _ first rest => exact steady_bind first rest

theorem steady_program (stream : Stream) : Steady program stream :=
  (stepwise_program stream).steady

end Parser

end Calculator

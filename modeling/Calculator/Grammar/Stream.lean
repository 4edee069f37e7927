import Calculator.Failure

/-!
Tokens as a parser sees them: the next one to be consumed, those that follow it, and the kind of the
one consumed last. After the last token either the end token follows, again and again, or the error
of the text that could not be cut into tokens.
-/

namespace Calculator

structure Stream where
  current : Token
  ahead : List Token
  ending : Except LexError Nat
  previous : Option Kind

namespace Stream

def ofTokens : List Token → Except LexError Nat → Except LexError Stream
  | token :: ahead, ending => .ok ⟨token, ahead, ending, none⟩
  | [], .ok pos => .ok ⟨.atEnd pos, [], .ok pos, none⟩
  | [], .error error => .error error

def ofSource (lexer : Lexer) (source : String) : Except LexError Stream :=
  let (tokens, ending) := lexer.tokens (.start source)
  ofTokens tokens ending

def advance (stream : Stream) : Except LexError Stream :=
  match stream.ahead, stream.ending with
  | token :: ahead, _ =>
      .ok { stream with current := token, ahead := ahead, previous := some stream.current.kind }
  | [], .ok pos =>
      .ok { stream with current := .atEnd pos, previous := some stream.current.kind }
  | [], .error error => .error error

def rest (stream : Stream) : List Token := stream.current :: stream.ahead

/-- How many tokens can still be consumed before the end of input. -/
def size (stream : Stream) : Nat :=
  stream.ahead.length + if stream.current.kind = .endOfInput then 0 else 1

def unexpected (stream : Stream) (expected : Expected) : ParseError :=
  .unexpected expected stream.current.kind stream.current.pos

theorem size_le_length_rest (stream : Stream) : stream.size ≤ stream.rest.length := by
  simp only [size, rest, List.length_cons]
  split <;> omega

theorem size_advance_lt {stream next : Stream} (moved : stream.advance = .ok next)
    (more : stream.current.kind ≠ .endOfInput) : next.size < stream.size := by
  obtain ⟨current, ahead, ending, previous⟩ := stream
  cases ahead with
  | cons token ahead =>
    cases moved
    simp only [size, List.length_cons, if_neg more]
    split <;> omega
  | nil =>
    cases ending with
    | ok pos =>
      cases moved
      simp [size, if_neg more, Token.atEnd]
    | error error => cases moved

end Stream

end Calculator

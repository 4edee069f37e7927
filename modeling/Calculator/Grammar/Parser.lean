import Calculator.Grammar.Stream

/-!
Parsers: functions that consume tokens from the front of a stream and yield a result or an error.
The stream is kept in either case, so that what has been consumed stays consumed.
-/

namespace Calculator

def Parser (α : Type) : Type := Stream → Except ParseError α × Stream

namespace Parser

variable {α β : Type}

def run (parser : Parser α) (stream : Stream) : Except ParseError α × Stream := parser stream

instance : Monad Parser where
  pure value := fun stream => (.ok value, stream)
  bind parser next := fun stream =>
    match parser stream with
    | (.ok value, rest) => next value rest
    | (.error error, rest) => (.error error, rest)

def fail (error : ParseError) : Parser α := fun stream => (.error error, stream)

def unexpected (expected : Expected) : Parser α :=
  fun stream => (.error (stream.unexpected expected), stream)

def current : Parser Token := fun stream => (.ok stream.current, stream)

def kind : Parser Kind := fun stream => (.ok stream.current.kind, stream)

def previous : Parser (Option Kind) := fun stream => (.ok stream.previous, stream)

/-- Consumes the current token. Where no token can be cut after it, nothing is consumed. -/
def advance : Parser Token := fun stream =>
  match stream.advance with
  | .ok next => (.ok stream.current, next)
  | .error error => (.error (.lexical error), stream)

def expectOneOf (kinds : List Kind) : Parser Token := do
  if (← kind) ∈ kinds then advance else unexpected (.anyOf kinds)

def expect (wanted : Kind) : Parser Token := expectOneOf [wanted]

/-- A parser that consumes a token on every round has at most as many rounds as there are tokens
left, so its recursion may follow these. -/
def within (parser : (room : List Token) → Parser α) : Parser α :=
  fun stream => parser stream.rest stream

def commaItems (item : Parser α) (closing : Kind) : (room : List Token) → Parser (List α)
  | [] => do return [← item]
  | _ :: room => do
      let first ← item
      let separator ← expectOneOf [.comma, closing]
      if separator.kind = closing then return [first]
      else return first :: (← commaItems item closing room)

def commaSeparated (item : Parser α) (closing : Kind) : Parser (List α) := do
  if (← kind) = closing then
    discard advance
    return []
  else within (commaItems item closing)

def identifier : Parser String := do return (← expect .identifier).text

theorem run_pure (value : α) (stream : Stream) :
    (pure value : Parser α).run stream = (.ok value, stream) := rfl

theorem run_bind (parser : Parser α) (next : α → Parser β) (stream : Stream) :
    (parser >>= next).run stream =
      match parser.run stream with
      | (.ok value, rest) => (next value).run rest
      | (.error error, rest) => (.error error, rest) := rfl

end Parser

end Calculator

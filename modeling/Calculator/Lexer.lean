import Calculator.Pattern.Search
import Calculator.Token

/-!
Cutting a source into tokens. A lexer has rules in order of priority. At each place it takes the
best match of all rules together, and then gives that word the kind of the first rule that accepts
the word as a whole.
-/

namespace Calculator

inductive LexError
  | noMatch (snippet : String) (pos : Nat)
  | unclassified (text : String) (pos : Nat)
  | invalidRule (pattern : String)
  deriving DecidableEq, Repr

/-- A word has the kind of a rule if one of the branches is found in it. The first branch has to be
found at the start of the word and the last one up to its end, so that a single branch has to match
all of it. -/
structure Rule where
  branches : List Pattern
  kind : Kind
  deriving DecidableEq, Repr

namespace Rule

def of (pattern : Pattern) (kind : Kind) : Rule := ⟨[pattern], kind⟩

def finds (pattern : Pattern) (fromStart toEnd : Bool) (text : List Char) : Bool :=
  let places := if fromStart then [.start text] else Cursor.onward [] text
  places.any fun here => if toEnd then pattern.takesRest here else (pattern.firstEnd? here).isSome

def accepts (rule : Rule) (word : List Char) : Bool :=
  rule.branches.zipIdx.any fun (branch, index) =>
    finds branch (index = 0) (index + 1 = rule.branches.length) word

theorem accepts_of (pattern : Pattern) (kind : Kind) (word : List Char) :
    (of pattern kind).accepts word = pattern.accepts word := by
  simp [accepts, of, finds, Pattern.accepts]

end Rule

structure Lexer where
  rules : List Rule
  skipsBlanks : Bool
  deriving DecidableEq, Repr

def byteCount : List Char → Nat
  | [] => 0
  | c :: rest => c.utf8Size + byteCount rest

/-- The part of a source that is still to be read, and the number of bytes before it. -/
structure Scan where
  rest : List Char
  pos : Nat
  deriving DecidableEq, Repr

namespace Scan

def start (source : String) : Scan := ⟨source.toList, 0⟩

def endPos (scan : Scan) : Nat := scan.pos + byteCount scan.rest

end Scan

/-- Blanks never include the line break, which separates statements. -/
def isBlank (c : Char) : Bool := c == ' ' || c == '\t' || c == '\r' || c == '\x0c'

structure Cut (scan : Scan) where
  token : Token
  after : Scan
  shorter : after.rest.length < scan.rest.length

/-- Tokens drawn from a lexer one after the other, errors included. `ended` tells that drawing has
come to its end rather than to a limit. -/
structure Drawn where
  items : List (Except LexError Token)
  ended : Bool
  after : Scan

namespace Lexer

def union (lexer : Lexer) : Pattern := .choice (lexer.rules.flatMap Rule.branches)

def classify (lexer : Lexer) (text : List Char) : Option Kind :=
  (lexer.rules.find? fun rule => rule.accepts text).map Rule.kind

def skip (lexer : Lexer) (scan : Scan) : Scan :=
  if lexer.skipsBlanks then
    ⟨scan.rest.dropWhile isBlank, scan.pos + byteCount (scan.rest.takeWhile isBlank)⟩
  else scan

theorem length_skip_le (lexer : Lexer) (scan : Scan) :
    (lexer.skip scan).rest.length ≤ scan.rest.length := by
  unfold skip
  split
  · exact (List.dropWhile_sublist isBlank).length_le
  · exact Nat.le_refl _

theorem length_rest_lt {pattern : Pattern} {text : List Char} {stop : Cursor}
    (found : pattern.firstEnd? (.start text) = some stop) (taken : stop.taken ≠ []) :
    stop.rest.length < text.length := by
  have same := Pattern.firstEnd?_text found
  have lengths := congrArg List.length same
  simp only [Cursor.text, Cursor.start, List.length_append, List.length_reverse, List.length_nil,
    Nat.zero_add] at lengths
  have some_taken := List.length_pos_iff.mpr taken
  omega

/-- The best match that begins right at a place. A match of no characters is no match. -/
def firstMatch? (lexer : Lexer) (here : Scan) :
    Option { stop : Cursor // stop.rest.length < here.rest.length } :=
  match found : lexer.union.firstEnd? (.start here.rest) with
  | none => none
  | some stop => if taken : stop.taken ≠ [] then some ⟨stop, length_rest_lt found taken⟩ else none

def cut (lexer : Lexer) (here : Scan) : Except LexError (Cut here) :=
  match lexer.firstMatch? here with
  | none => .error (.noMatch (String.ofList (here.rest.take 10)) here.pos)
  | some ⟨stop, shorter⟩ =>
      let word := stop.taken.reverse
      match lexer.classify word with
      | none => .error (.unclassified (String.ofList word) here.pos)
      | some kind =>
          .ok ⟨⟨kind, String.ofList word, here.pos⟩, ⟨stop.rest, here.pos + byteCount word⟩, shorter⟩

/-- Cuts the next token after any blanks; there is none at the end of the source. -/
def cut? (lexer : Lexer) (scan : Scan) : Except LexError (Option (Cut scan)) :=
  let here := lexer.skip scan
  if here.rest.isEmpty then .ok none
  else match lexer.cut here with
    | .error error => .error error
    | .ok found =>
        .ok (some ⟨found.token, found.after,
          Nat.lt_of_lt_of_le found.shorter (lexer.length_skip_le scan)⟩)

/-- The next token, and the place after it. At the end of the source it is the end token, again and
again; where no token can be cut the place stays in front of the offending text. -/
def next (lexer : Lexer) (scan : Scan) : Except LexError Token × Scan :=
  match lexer.cut? scan with
  | .error error => (.error error, lexer.skip scan)
  | .ok none => (.ok (.atEnd scan.endPos), lexer.skip scan)
  | .ok (some found) => (.ok found.token, found.after)

def tokens (lexer : Lexer) (scan : Scan) : List Token × Except LexError Nat :=
  match lexer.cut? scan with
  | .error error => ([], .error error)
  | .ok none => ([], .ok scan.endPos)
  | .ok (some found) =>
      let (later, ending) := lexer.tokens found.after
      (found.token :: later, ending)
termination_by scan.rest.length
decreasing_by exact found.shorter

/-- Draws tokens up to the end of input, the first error or a limit. A token of the kind `endOfInput`
ends the drawing and is not drawn itself; an error is drawn and is the last. -/
def draw (lexer : Lexer) (limit : Option Nat) (scan : Scan) : Drawn :=
  if limit = some 0 then ⟨[], false, scan⟩
  else match lexer.cut? scan with
    | .error error => ⟨[.error error], limit != some 1, lexer.skip scan⟩
    | .ok none => ⟨[], true, lexer.skip scan⟩
    | .ok (some found) =>
        if found.token.kind = .endOfInput then ⟨[], true, found.after⟩
        else
          let later := lexer.draw (limit.map (· - 1)) found.after
          { later with items := .ok found.token :: later.items }
termination_by scan.rest.length
decreasing_by exact found.shorter

end Lexer

end Calculator

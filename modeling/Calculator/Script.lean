import Calculator.Evaluation
import Calculator.Grammar.Statement
import Calculator.Lexer.Standard
import Calculator.Syntax.Outline

/-!
Running sources from text to printed text.
-/

namespace Calculator

inductive Mode
  | integer
  | typed
  deriving DecidableEq, Repr

structure Settings where
  mode : Mode
  skipsBlanks : Bool
  showsOutline : Bool
  showsValue : Bool
  deriving DecidableEq, Repr

/-- What a run leaves behind: the text on the output, and the failure that ended it, if one did. -/
structure Outcome where
  output : String
  failure : Option Failure

def callDepth : Nat := 4000

def parse (skipsBlanks : Bool) (source : String) : Except Failure Program :=
  (Program.parse (.standard skipsBlanks) source).mapError ParseError.toFailure

def printedText {V : Type} [Arithmetic V] (values : List V) : String :=
  String.join (values.map fun value => Arithmetic.text value ++ "\n")

namespace Session

variable {V : Type} [Arithmetic V]

def evaluate (program : Program) (session : Session V) :
    Option (Except EvalError (Option V) × Session V) :=
  (program.eval callDepth).run session

end Session

/-- Runs a source in a new session. The result is the value of its last statement; beside it stand
the numbers printed on the way. -/
def evaluate (V : Type) [Arithmetic V] (source : String) :
    Option (Except Failure (Option V) × List V) :=
  match parse true source with
  | .error failure => some (.error failure, [])
  | .ok program =>
      (Session.start.evaluate program).map fun (result, session) =>
        (result.mapError Failure.runtime, session.printed.toList)

def Program.outcome (V : Type) [Arithmetic V] (showsValue : Bool) (program : Program) :
    Option Outcome :=
  (Session.start.evaluate program).map fun (result, session) =>
    let printed := printedText session.printed.toList
    match result with
    | .error error => ⟨printed, some (.runtime error)⟩
    | .ok (value : Option V) =>
        ⟨printed ++ if showsValue then printedText value.toList else "", none⟩

def run (settings : Settings) (source : String) : Option Outcome :=
  match parse settings.skipsBlanks source with
  | .error failure => some ⟨"", some failure⟩
  | .ok program =>
      let shown := if settings.showsOutline then program.outlineText else ""
      let outcome :=
        match settings.mode with
        | .integer => program.outcome Int64 settings.showsValue
        | .typed => program.outcome Number settings.showsValue
      outcome.map fun outcome => { outcome with output := shown ++ outcome.output }

end Calculator

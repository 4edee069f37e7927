/-!
How much is logged. Each phase of a run logs under a target of its own and may have a level of its
own.
-/

namespace Calculator

inductive LogLevel
  | error | warn | info | debug | trace
  deriving DecidableEq, Repr

namespace LogLevel

def all : List LogLevel := [error, warn, info, debug, trace]

def name : LogLevel → String
  | error => "ERROR"
  | warn => "WARN"
  | info => "INFO"
  | debug => "DEBUG"
  | trace => "TRACE"

def rank : LogLevel → Nat
  | error => 1
  | warn => 2
  | info => 3
  | debug => 4
  | trace => 5

def ofName? (text : String) : Option LogLevel := all.find? fun level => level.name == text

def ofRank? (rank : Nat) : Option LogLevel := all.find? fun level => level.rank == rank

end LogLevel

inductive Phase
  | lexer | parser | eval
  deriving DecidableEq, Repr

namespace Phase

def all : List Phase := [lexer, parser, eval]

def target : Phase → String
  | lexer => "reckon::lexer"
  | parser => "reckon::parser"
  | eval => "reckon::eval"

end Phase

structure LogSettings where
  overall : LogLevel
  lexer : Option LogLevel
  parser : Option LogLevel
  eval : Option LogLevel
  deriving DecidableEq, Repr

namespace LogSettings

def start : LogSettings := ⟨.warn, none, none, none⟩

def own (settings : LogSettings) : Phase → Option LogLevel
  | .lexer => settings.lexer
  | .parser => settings.parser
  | .eval => settings.eval

def levelFor (settings : LogSettings) (phase : Phase) : LogLevel :=
  (settings.own phase).getD settings.overall

/-- The level of a target is that of the phase whose target it begins with. -/
def levelOf (settings : LogSettings) (target : String) : LogLevel :=
  match Phase.all.find? fun phase => phase.target.toList.isPrefixOf target.toList with
  | some phase => settings.levelFor phase
  | none => settings.overall

def enables (settings : LogSettings) (target : String) (level : LogLevel) : Bool :=
  level.rank ≤ (settings.levelOf target).rank

end LogSettings

end Calculator

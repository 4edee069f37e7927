import Calculator.Decimal.Reader
import Calculator.Logging
import Calculator.Script

/-!
The command line: options and one argument, the source or the path of a file that holds it.
-/

namespace Calculator

inductive Flag
  | file | typed | pipe | outline
  deriving DecidableEq, Repr

namespace Flag

def ofLong? : String → Option Flag
  | "file" => some file
  | "typed" => some typed
  | "pipe-mode" => some pipe
  | "dump-ast" => some outline
  | _ => none

def ofShort? : Char → Option Flag
  | 'f' => some file
  | 't' => some typed
  | 'p' => some pipe
  | _ => none

end Flag

/-- A level by its name, in either case, or by its rank. -/
def LogLevel.read? (text : String) : Option LogLevel :=
  let digits := match text.toList with
    | '+' :: digits => digits
    | digits => digits
  ((readNat? digits).bind ofRank?).or (ofName? (text.map Char.toUpper))

structure CommandLine where
  flags : List Flag
  logLevel : Option LogLevel
  contents : Option String
  deriving Repr

namespace CommandLine

def start : CommandLine := ⟨[], none, none⟩

def addFlag (line : CommandLine) (flag : Flag) : Option CommandLine :=
  if flag ∈ line.flags then none else some { line with flags := flag :: line.flags }

def addLevel (line : CommandLine) (text : String) : Option CommandLine :=
  match line.logLevel, LogLevel.read? text with
  | none, some level => some { line with logLevel := some level }
  | _, _ => none

def addContents (line : CommandLine) (text : String) : Option CommandLine :=
  match line.contents with
  | none => some { line with contents := some text }
  | some _ => none

def addShort (line : CommandLine) (letters : List Char) : Option CommandLine :=
  letters.foldlM (fun line letter => (Flag.ofShort? letter).bind line.addFlag) line

def addLong (line : CommandLine) (name : String) : Option CommandLine :=
  (Flag.ofLong? name).bind line.addFlag

def levelText? (argument : List Char) : Option String :=
  let option := "--log-level=".toList
  if option.isPrefixOf argument then some (String.ofList (argument.drop option.length)) else none

def addPlain (line : CommandLine) : List String → Option CommandLine
  | [] => some line
  | argument :: arguments => (line.addContents argument).bind (·.addPlain arguments)

def addArguments (line : CommandLine) : List String → Option CommandLine
  | [] => some line
  | "--" :: arguments => line.addPlain arguments
  | "--log-level" :: text :: arguments =>
      if text.toList.head? = some '-' then none
      else (line.addLevel text).bind (·.addArguments arguments)
  | argument :: arguments =>
      let added :=
        match levelText? argument.toList, argument.toList with
        | some text, _ => line.addLevel text
        | none, '-' :: '-' :: name => line.addLong (String.ofList name)
        | none, '-' :: letter :: letters => line.addShort (letter :: letters)
        | none, _ => line.addContents argument
      added.bind (·.addArguments arguments)

end CommandLine

structure Command where
  readsFile : Bool
  contents : String
  settings : Settings
  deriving Repr

/-- The command of a command line, which needs exactly one argument. -/
def Command.read? (arguments : List String) : Option Command := do
  let line ← CommandLine.start.addArguments arguments
  let contents ← line.contents
  return ⟨.file ∈ line.flags, contents,
    ⟨if .typed ∈ line.flags then .typed else .integer, true, .outline ∈ line.flags,
      .pipe ∈ line.flags⟩⟩

structure Response where
  status : Nat
  output : String
  errors : String
  deriving Repr

namespace Response

def unreadable (path : String) : Response :=
  ⟨1, "", s!"Failed to read the input file '{path}'. Perhaps this file does not exist?\n"⟩

/-- Where too many calls are open at a time the process gives up. -/
def exhausted : Response := ⟨134, "", "Too many calls are open.\n"⟩

def ofOutcome (outcome : Outcome) : Response :=
  match outcome.failure with
  | none => ⟨0, outcome.output, ""⟩
  | some failure => ⟨1, outcome.output, s!"{failure.kind.label}: {failure.message}\n"⟩

end Response

def Command.respond (command : Command) : Option String → Response
  | none => .unreadable command.contents
  | some source =>
      match run command.settings source with
      | some outcome => .ofOutcome outcome
      | none => .exhausted

def Command.carryOut {m : Type → Type} [Monad m] (readFile : String → m (Option String))
    (command : Command) : m Response := do
  if command.readsFile then
    return command.respond (← readFile command.contents)
  else return command.respond (some command.contents)

end Calculator

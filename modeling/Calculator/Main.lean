import Calculator.CommandLine

/-!
The program on the command line.
-/

namespace Calculator

def readFile (path : String) : IO (Option String) := do
  try
    return some (← IO.FS.readFile path)
  catch _ => return none

end Calculator

def main (arguments : List String) : IO UInt32 := do
  match Calculator.Command.read? arguments with
  | none =>
      IO.eprintln "Usage: [--file] [--typed] [--pipe-mode] [--dump-ast] [--log-level LEVEL] CONTENTS"
      return 2
  | some command =>
      let response ← command.carryOut Calculator.readFile
      IO.print response.output
      IO.eprint response.errors
      return response.status.toUInt32

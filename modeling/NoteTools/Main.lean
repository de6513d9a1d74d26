import NoteTools.CommandLine.Usage
import NoteTools.Launch

/-!
# The program

Reads the command line and the file of settings, and starts. The program has no transport to a note
server of its own, so it takes the server to be out of reach.
-/

namespace NoteTools

/-- How the program is used. -/
def usageLine : String :=
  "Usage: trove-mcp --config <FILE>"

/-- What is shown for an error of the command line. -/
def UsageError.message : UsageError → String
  | .missingConfig => "the required argument --config <FILE> was not provided"
  | .unknownArgument => "unexpected argument found"
  | .invalidValue => "a value is required for --config <FILE> but none was supplied"
  | .repeatedConfig => "the argument --config <FILE> cannot be used multiple times"
  | .surplusValue => "unexpected value for an argument that takes none"
  | .help => usageLine
  | .version => "trove-mcp 0.1.0"

/-- The octets of a file, if it can be read. -/
def octetsOf (path : String) : IO (Option (List UInt8)) := do
  try
    return some (← IO.FS.readBinFile path).toList
  catch _ =>
    return none

/-- Starts the program with a file of settings. -/
def startWith (path : String) : IO UInt32 := do
  let (r, _) := (launch path (← octetsOf path)).run (Session.start .unreachable)
  match r with
  | .ok _ => return 0
  | .error e =>
    IO.eprintln ("Error: " ++ e.message)
    return 1

end NoteTools

open NoteTools in
/-- The program: an exit status of 2 for a wrong command line, of 1 for a failed start. -/
def main (arguments : List String) : IO UInt32 := do
  match Usage.parse arguments with
  | .ok path => startWith path
  | .error .help => IO.println usageLine; return 0
  | .error .version => IO.println (UsageError.message .version); return 0
  | .error e =>
    IO.eprintln ("error: " ++ UsageError.message e ++ "\n\n" ++ usageLine)
    return 2

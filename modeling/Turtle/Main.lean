import Turtle.CommandLine.Run

/-!
# The command line

Reads a saved workspace and writes its program.
-/

namespace Turtle.CommandLine

/-- How the command line is used. -/
def usage : String :=
  "Generate Logo (turtle graphics) source from a saved block workspace.\n\n" ++
  "Usage: turtle [OPTIONS] <INPUT> [OUTPUT]\n\n" ++
  "  INPUT                         The saved workspace.\n" ++
  "  OUTPUT                        Write the program here instead of stdout.\n" ++
  "  --format <FORMAT>             Workspace serialization of INPUT: auto, json or xml.\n" ++
  "  --zero-based-index            Treat list and text positions in the workspace as 0-based.\n" ++
  "  --statement-prefix <SNIPPET>  Logo emitted before every statement; %1 is the block id.\n" ++
  "  --statement-suffix <SNIPPET>  Logo emitted after every statement; %1 is the block id.\n" ++
  "  --loop-trap <SNIPPET>         Logo emitted at the top of every loop and procedure body.\n"

/-- A misuse in words. -/
def UsageError.message : UsageError → String
  | .missingArgument => "a required argument is missing"
  | .unknownArgument => "an argument is not known"
  | .badValue => "a value is missing or not allowed"
  | .repeated => "an option is given more than once"
  | .unexpectedValue => "a flag takes no value"
  | .help => ""

/-- The file at a path of the system. -/
def source (path : String) : IO Source := do
  try
    let full ← IO.FS.realPath path
    if (← full.metadata).type == .file then
      return .file full.toString (← IO.FS.readBinFile full)
    else return .missing
  catch _ => return .missing

/-- Write the program where the arguments say. -/
def deliver (a : Arguments) (code : String) : IO (Option Failure) := do
  match a.output with
  | none =>
    (← IO.getStdout).putStr code
    return none
  | some path =>
    try
      IO.FS.writeFile path code
      return none
    catch e => return some (.unwritable path (toString e))

/-- Carry out a run. -/
def perform (a : Arguments) : IO UInt32 := do
  let failure ← match a.compile (← source a.input) with
    | .error e => pure (some e)
    | .ok code => deliver a code
  let stderr ← IO.getStderr
  stderr.putStr (a.progress failure)
  match failure with
  | none => return 0
  | some e =>
    stderr.putStr ("Error: " ++ "\n".intercalate e.messages ++ "\n")
    return 1

/-- A run with these arguments, or what they are refused for. -/
def start (arguments : List String) : IO UInt32 := do
  match Arguments.read arguments with
  | .ok a => perform a
  | .error .help =>
    (← IO.getStdout).putStr usage
    return 0
  | .error e =>
    (← IO.getStderr).putStr ("error: " ++ e.message ++ "\n\n" ++ usage)
    return 2

end Turtle.CommandLine

/-- Run the command line. -/
def main (arguments : List String) : IO UInt32 := Turtle.CommandLine.start arguments

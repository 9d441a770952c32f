import Turtle.CommandLine.Arguments
import Turtle.Compile.Session

/-!
# A run of the command line

A run resolves its input, loads the workspace, compiles it, and writes the program to a file if it
is asked to. It reports each stage when it begins, and ends at the first stage that fails.
-/

namespace Turtle.CommandLine

/-- The stages of a run. -/
inductive Stage where
  | resolve
  | load
  | compile
  | write
deriving DecidableEq, Repr

/-- What a stage does. -/
def Stage.label : Stage → String
  | .resolve => "Resolving input path"
  | .load => "Loading workspace"
  | .compile => "Generating Logo"
  | .write => "Writing output"

/-- Why a run fails. Every failure tells the path of the file. -/
inductive Failure where
  | notFound (path : String)
  | unreadable (path cause : String)
  | load (path : String) (error : LoadError)
  | compile (path : String) (error : CompileError)
  | unwritable (path cause : String)
deriving DecidableEq, Repr

namespace Failure

/-- The stage that fails. -/
def stage : Failure → Stage
  | notFound _ => .resolve
  | unreadable _ _ | load _ _ => .load
  | compile _ _ => .compile
  | unwritable _ _ => .write

/-- A failure in words, and its cause in more detail. -/
def messages : Failure → List String
  | notFound path => ["Input file not found: '" ++ path ++ "'."]
  | unreadable path cause => ["Failed to read '" ++ path ++ "'.", cause]
  | load path error => ("Failed to load workspace '" ++ path ++ "'.") :: error.messages
  | compile path error => ["Failed to generate Logo for '" ++ path ++ "'.", error.message]
  | unwritable path cause => ["Failed to write '" ++ path ++ "'.", cause]

end Failure

/-! ## Progress -/

/-- The number of marks in a progress bar. -/
def barWidth : Nat := 14

/-- A progress bar, filled in proportion and rounded to whole marks. -/
def bar (step total : Nat) : String :=
  let filled := (step * barWidth + total / 2) / total
  let marks := List.replicate filled '=' ++ List.replicate (barWidth - filled) '-'
  String.ofList ('[' :: marks ++ [']'])

/-- The report of a stage. -/
def progressLine (stage : Stage) (step total : Nat) : String :=
  "[Generate] " ++ stage.label ++ "... (" ++ toString step ++ "/" ++ toString total ++ ") " ++
    bar step total ++ "\n"

/-- The stages of a run with these arguments. -/
def Arguments.stages (a : Arguments) : List Stage :=
  [.resolve, .load, .compile] ++ if a.output.isSome then [.write] else []

/-- The stages that a run begins, which end with the one that fails. -/
def reached (failed : Option Stage) : List Stage → List Stage
  | [] => []
  | s :: rest => s :: if failed = some s then [] else reached failed rest

/-- All reports of a run. -/
def Arguments.progress (a : Arguments) (failure : Option Failure) : String :=
  String.join ((reached (failure.map (·.stage)) a.stages).zipIdx.map fun (stage, i) ↦
    progressLine stage (i + 1) a.stages.length)

/-! ## The program -/

/-- What is found at the path of the input. -/
inductive Source where
  /-- No file. -/
  | missing
  /-- A file with its full path. -/
  | file (path : String) (content : ByteArray)

/-- What is said of a file that is not UTF-8. -/
def notUtf8 : String := "stream did not contain valid UTF-8"

/-- The program that a run leaves. -/
def Arguments.compile (a : Arguments) : Source → Except Failure String
  | .missing => .error (.notFound a.input)
  | .file path content =>
    match String.fromUTF8? content with
    | none => .error (.unreadable path notUtf8)
    | some text =>
      match Workspace.read (a.format.getD (.detect path text)) text with
      | .error e => .error (.load path e)
      | .ok workspace =>
        match Compiler.program { options := a.options } workspace with
        | .error e => .error (.compile path e)
        | .ok code => .ok code

end Turtle.CommandLine

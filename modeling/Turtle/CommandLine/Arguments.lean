import Turtle.Compile.Options
import Turtle.Workspace.Format

/-!
# Arguments of the command line

Arguments are read from left to right. A value is settled, and so found wrong, only when the next
known argument or the end comes, unless it is attached to its option by an equals sign; an unknown
argument is an error at once.
-/

namespace Turtle.CommandLine

/-- A parameter that takes a value. -/
inductive Parameter where
  | input
  | output
  | format
  | before
  | after
  | trap
deriving DecidableEq, Repr

/-- Why arguments are refused, or not run. -/
inductive UsageError where
  | missingArgument
  | unknownArgument
  /-- A value is missing, or is not one of the parameter. -/
  | badValue
  /-- An option is given twice. -/
  | repeated
  /-- A value is attached to a flag. -/
  | unexpectedValue
  /-- No error: help is asked for. -/
  | help
deriving DecidableEq, Repr

/-- The parameter of an option, by its long name. -/
def Parameter.ofOption? : String → Option Parameter
  | "format" => some .format
  | "statement-prefix" => some .before
  | "statement-suffix" => some .after
  | "loop-trap" => some .trap
  | _ => none

/-- The parameters that are told by their position. -/
def positionals : List Parameter := [.input, .output]

/-- Whether a value is one of a parameter. -/
def Parameter.accepts (p : Parameter) (value : String) : Bool :=
  match p with
  | .input | .output => value != ""
  | .format => ["auto", "json", "xml"].contains value
  | .before | .after | .trap => true

/-- What has been read of the arguments. -/
structure Reading where
  /-- The settled values. -/
  values : List (Parameter × String) := []
  zeroBased : Bool := false
  /-- The parameter read last, and its value if it has come. -/
  pending : Option (Parameter × Option String) := none
  /-- The number of positional arguments read. -/
  position : Nat := 0
  /-- Options have ended. -/
  ended : Bool := false

namespace Reading

/-- Settle a value of a parameter. -/
def assign (r : Reading) (p : Parameter) (value : String) : Except UsageError Reading :=
  if (r.values.lookup p).isSome then .error .repeated
  else if p.accepts value then .ok { r with values := (p, value) :: r.values }
  else .error .badValue

/-- Settle the parameter read last. -/
def settle (r : Reading) : Except UsageError Reading :=
  match r.pending with
  | none => .ok r
  | some (_, none) => .error .badValue
  | some (p, some value) => { r with pending := none }.assign p value

/-- Read a positional argument. -/
def takePositional (r : Reading) (value : String) : Except UsageError Reading :=
  match positionals[r.position]? with
  | none => .error .unknownArgument
  | some p => do
    let s ← r.settle
    return { s with pending := some (p, some value), position := r.position + 1 }

/-- Read an option by its name, with the value that is attached to it. -/
def takeOption (r : Reading) (name : String) (attached : Option String) :
    Except UsageError Reading :=
  if name = "help" ∨ name = "zero-based-index" then
    if attached.isSome then .error .unexpectedValue
    else do
      let s ← r.settle
      if name = "help" then .error .help
      else if s.zeroBased then .error .repeated
      else return { s with zeroBased := true }
  else match Parameter.ofOption? name with
    | none => .error .unknownArgument
    | some p => do
      let s ← r.settle
      match attached with
      | some value => s.assign p value
      | none => return { s with pending := some (p, none) }

/-- Read an argument that is not an option: a value that an option waits for, or else a positional
one. -/
def takeValue (r : Reading) (value : String) : Except UsageError Reading :=
  match r.pending with
  | some (p, none) => .ok { r with pending := some (p, some value) }
  | _ => r.takePositional value

/-- The name of an option, and the value behind an equals sign. -/
def splitOption (s : List Char) : String × Option String :=
  let name := String.ofList (s.takeWhile (· != '='))
  match s.dropWhile (· != '=') with
  | [] => (name, none)
  | _ :: value => (name, some (String.ofList value))

/-- Read an argument. -/
def step (r : Reading) (argument : String) : Except UsageError Reading :=
  if r.ended then r.takePositional argument
  else match argument.toList with
    | ['-', '-'] => .ok { r with ended := true }
    | '-' :: '-' :: s => r.takeOption (splitOption s).1 (splitOption s).2
    | '-' :: 'h' :: _ => r.takeOption "help" none
    | '-' :: _ :: _ => .error .unknownArgument
    | _ => r.takeValue argument

end Reading

/-- What a run is asked to do. -/
structure Arguments where
  input : String
  /-- The file for the program, in place of the standard output. -/
  output : Option String := none
  /-- The format of the input, if it is not to be detected. -/
  format : Option Format := none
  zeroBased : Bool := false
  before : Option String := none
  after : Option String := none
  trap : Option String := none
deriving DecidableEq, Repr

namespace Arguments

/-- The format that a value asks for. -/
def formatOf : String → Option Format
  | "json" => some .json
  | "xml" => some .xml
  | _ => none

/-- What settled arguments ask for. -/
def ofReading (r : Reading) : Except UsageError Arguments :=
  match r.values.lookup .input with
  | none => .error .missingArgument
  | some input => .ok {
    input
    output := r.values.lookup .output
    format := (r.values.lookup .format).bind formatOf
    zeroBased := r.zeroBased
    before := r.values.lookup .before
    after := r.values.lookup .after
    trap := r.values.lookup .trap }

/-- Read the arguments of a run. -/
def read (arguments : List String) : Except UsageError Arguments := do
  let r ← arguments.foldlM Reading.step {}
  ofReading (← r.settle)

/-- A snippet as a line of its own. -/
def asLine (snippet : String) : String :=
  if snippet.endsWith "\n" then snippet else snippet ++ "\n"

/-- The options for the compiler. -/
def options (a : Arguments) : Options where
  oneBased := !a.zeroBased
  before := a.before.map asLine
  after := a.after.map asLine
  trap := a.trap.map asLine

end Arguments

end Turtle.CommandLine

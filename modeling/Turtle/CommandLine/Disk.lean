import Turtle.CommandLine.Run

/-!
# Runs on a disk

A disk is a tree of directories and files. A run on a disk is a function: it yields what is printed,
the outcome, and the disk as it is then.
-/

namespace Turtle.CommandLine

/-- What is on a disk under a path. -/
inductive Entry where
  | directory
  | file (content : ByteArray)

/-- Why a path leads nowhere. -/
inductive PathError where
  | missing
  | notDirectory
  | isDirectory
deriving DecidableEq, Repr

/-- The cause in words, with the number that the system gives it. -/
def PathError.message : PathError → String
  | .missing => "No such file or directory (os error 2)"
  | .notDirectory => "Not a directory (os error 20)"
  | .isDirectory => "Is a directory (os error 21)"

/-- A tree of files below a root. -/
structure Disk where
  /-- The full path of the root. -/
  root : String
  /-- The entries below the root, by the parts of their paths. -/
  entries : List (List String × Entry) := []

namespace Disk

/-- What lies at a place below the root. A place with entries below it is a directory. -/
def entry? (d : Disk) (place : List String) : Option Entry :=
  match d.entries.lookup place with
  | some e => some e
  | none =>
    if place = [] ∨ d.entries.any (fun (other, _) ↦ place.isPrefixOf other) then some .directory
    else none

/-- Whether a place is a directory. -/
def isDirectory (d : Disk) (place : List String) : Bool :=
  match d.entry? place with
  | some .directory => true
  | _ => false

/-- Follow the parts of a path from a place. Only directories lead on. -/
def walk (d : Disk) (place : List String) : List String → Except PathError (List String)
  | [] => .ok place
  | part :: rest =>
    if !d.isDirectory place then .error .notDirectory
    else if part = "" ∨ part = "." then d.walk place rest
    else if part = ".." then d.walk place.dropLast rest
    else if (d.entry? (place ++ [part])).isSome then d.walk (place ++ [part]) rest
    else .error .missing

/-- The parts of a path below the root, unless the path is outside. -/
def parts? (d : Disk) (path : String) : Option (List String) :=
  let start := d.root.toList ++ ['/']
  if start.isPrefixOf path.toList then
    some ((String.ofList (path.toList.drop start.length)).splitOn "/")
  else none

/-- The full path of a place. -/
def fullPath (d : Disk) (place : List String) : String := "/".intercalate (d.root :: place)

/-- The file at a path. -/
def source (d : Disk) (path : String) : Source :=
  match (d.parts? path).map (d.walk []) with
  | some (.ok place) =>
    match d.entry? place with
    | some (.file content) => .file (d.fullPath place) content
    | _ => .missing
  | _ => .missing

/-- The place where a file may be written: in a directory, under a name that no directory has. A
slash behind the name asks for a directory. -/
def target (d : Disk) (path : String) : Except PathError (List String) := do
  match d.parts? path with
  | none => .error .missing
  | some parts =>
    let named := (parts.reverse.dropWhile (· == "")).reverse
    let place ← d.walk [] named.dropLast
    let name := named.getLastD "."
    if !d.isDirectory place then .error .notDirectory
    else if name = "." ∨ name = ".." ∨ named ≠ parts ∨ d.isDirectory (place ++ [name]) then
      .error .isDirectory
    else return place ++ [name]

/-- Write a file. -/
def write (d : Disk) (path text : String) : Except PathError Disk := do
  let place ← d.target path
  return { d with entries := (place, .file text.toUTF8) :: d.entries }

/-- The text of the file at a path. -/
def text? (d : Disk) (path : String) : Option String :=
  match d.source path with
  | .file _ content => String.fromUTF8? content
  | .missing => none

end Disk

/-- What a run leaves apart from the disk. -/
structure Outcome where
  /-- What is printed. -/
  printed : String := ""
  failure : Option Failure := none

/-- A run on a disk. -/
def Arguments.run (a : Arguments) (d : Disk) : Outcome × Disk :=
  match a.compile (d.source a.input) with
  | .error e => ({ failure := some e }, d)
  | .ok code =>
    match a.output with
    | none => ({ printed := code }, d)
    | some path =>
      match d.write path code with
      | .ok d => ({}, d)
      | .error e => ({ failure := some (.unwritable path e.message) }, d)

end Turtle.CommandLine

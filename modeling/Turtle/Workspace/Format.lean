import Turtle.Path
import Turtle.Text.Blank
import Turtle.Workspace.OfJson

/-!
# Formats of saved workspaces

A file is taken for JSON or for XML by the extension of its name, or else by how its text begins.
-/

namespace Turtle

/-- A format of saved workspaces. -/
inductive Format where
  | json
  | xml
deriving DecidableEq, Repr

namespace Format

/-- The format of an extension in any case. -/
def ofExtension? (extension : String) : Option Format :=
  match String.ofList (extension.toList.map Char.toLower) with
  | "xml" => some .xml
  | "json" => some .json
  | _ => none

/-- The format that a text looks like. -/
def ofText (s : String) : Format :=
  if (s.toList.dropWhile Text.isBlank).head? = some '<' then .xml else .json

/-- The format of a text that may come from a file. -/
def detect (path : Option String) (s : String) : Format :=
  ((path.bind Path.extension?).bind ofExtension?).getD (ofText s)

end Format

/-- Read a workspace that is saved in a format. -/
def Workspace.read : Format → String → LoadM Workspace
  | .json => readJson
  | .xml => readXml

end Turtle

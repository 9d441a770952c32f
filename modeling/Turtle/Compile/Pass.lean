import Turtle.Compile.Error
import Turtle.Identifier.Names
import Turtle.Table
import Turtle.Text.Lines
import Turtle.Text.Replace

/-!
# The state of a pass

A pass over a workspace hands out identifiers and collects definitions, which the finished program
puts before its first statement: procedures of the user, and helper procedures that emitted code
calls.
-/

namespace Turtle

/-- Re-express the leading pairs of spaces of a line in another unit. -/
def Text.reindentLine (indent line : List Char) : List Char :=
  let spaces := (line.takeWhile (· == ' ')).length
  (List.replicate (spaces / 2) indent).flatten ++ List.replicate (spaces % 2) ' ' ++
    line.dropWhile (· == ' ')

/-- Re-express indentation by pairs of spaces in another unit. -/
def reindent (indent s : String) : String :=
  String.ofList (Text.joinLines
    ((Text.splitLines s.toList).map (Text.reindentLine indent.toList)))

/-- What a pass has handed out and collected. -/
structure Pass where
  names : Names := .standard
  /-- The definitions under their keys, first registered first. -/
  definitions : List (String × String) := []
  /-- The procedure of each helper, latest first. -/
  helpers : List (String × String) := []
deriving DecidableEq, Repr

namespace Pass

/-- Stands for the name of a helper in its lines. -/
def namePlaceholder : String := "\x7bleCUI8hutHZI4480Dc\x7d"

/-- The key of a procedure among the definitions. Helpers are under their own keys. -/
def procedureKey (name : String) : String := "%" ++ name

/-- The identifier of a name. -/
def name (p : Pass) (kind : NameKind) (nameOrId : String) : String × Pass :=
  let (chosen, names) := p.names.get kind nameOrId
  (chosen, { p with names })

/-- The name of a helper, defined by `lines` when its key is first asked for. -/
def helper (indent : String) (p : Pass) (key : String) (lines : List String) : String × Pass :=
  match p.helpers.lookup key with
  | some chosen => (chosen, p)
  | none =>
    let (chosen, names) := p.names.fresh key
    let text := replace namePlaceholder chosen ("\n".intercalate lines)
    (chosen, {
      names
      definitions := p.definitions ++ [(key, reindent indent text)]
      helpers := (key, chosen) :: p.helpers })

/-- Define a procedure, in place of an earlier definition of it. -/
def define (p : Pass) (name code : String) : Pass :=
  { p with definitions := Table.put (procedureKey name) code p.definitions }

/-- The program: the definitions, separated by blank lines, and the code. -/
def program (p : Pass) (code : String) : String :=
  "\n\n".intercalate (p.definitions.map (·.2)) ++ "\n\n\n" ++ code

end Pass

/-- Computations of a pass. What was handed out before an error stays handed out. -/
abbrev PassM := EStateM CompileError Pass

end Turtle

import Turtle.Block
import Turtle.Text.Wrap

/-!
# Comments

A statement is preceded by its own comment, wrapped, and by the comments of everything connected to
its value inputs, which have no lines of their own.
-/

namespace Turtle

/-- What opens a comment. -/
def commentMark : String := "; "

namespace Block

/-- The comment of a block by itself. -/
def ownComment (width : Nat) (b : Block) : String :=
  match b.head.comment? with
  | some comment => prefixLines commentMark (wrap (width - 3) comment ++ "\n")
  | none => ""

/-- The comments of a block and of all blocks connected to it, each ended by a newline. -/
def nestedComments (b : Block) : String :=
  String.join ((b.descendants.filterMap (·.head.comment?)).map (· ++ "\n"))

/-- The nested comments of the blocks connected to value inputs. -/
def inputComments (b : Block) : String :=
  String.join (b.inputs.map fun i ↦
    match i.shape, i.target with
    | .value, some c =>
      let comments := c.nestedComments
      if comments == "" then "" else prefixLines commentMark comments
    | _, _ => "")

/-- All comments before a block. -/
def comments (width : Nat) (b : Block) : String := b.ownComment width ++ b.inputComments

end Block

end Turtle

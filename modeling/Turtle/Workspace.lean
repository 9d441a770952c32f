import Turtle.Block

/-!
# Workspaces

A workspace holds the variables of a program and its top blocks, which lie anywhere on the canvas.
The program reads them from top to bottom and, at one height, from left to right.
-/

namespace Turtle

/-- Insert into a list sorted from the last to the first, behind nothing that is less. -/
def insertDown {α : Type} (less : α → α → Bool) (a : α) : List α → List α
  | [] => [a]
  | b :: rest => if less a b then b :: insertDown less a rest else a :: b :: rest

/-- Sort a list, keeping the order of elements neither of which is less. -/
def stableSort {α : Type} (less : α → α → Bool) (as : List α) : List α :=
  (as.foldl (fun sorted a ↦ insertDown less a sorted) []).reverse

/-- A variable and the id by which fields refer to it. -/
structure Variable where
  id : String
  name : String
deriving DecidableEq, Repr

/-- A saved program. -/
structure Workspace where
  vars : List Variable := []
  topBlocks : List Block := []

namespace Block

/-- A coordinate to sort by; a missing one comes after all finite ones. -/
def sortKey (coordinate : Option Binary64) : Binary64 := coordinate.getD .largest

/-- The order of two blocks on the canvas. Coordinates that do not compare count as equal. -/
def comparePosition (a b : Block) : Ordering :=
  match Binary64.compare? (sortKey a.head.y) (sortKey b.head.y) with
  | some .eq => (Binary64.compare? (sortKey a.head.x) (sortKey b.head.x)).getD .eq
  | o => o.getD .eq

end Block

namespace Workspace

/-- The top blocks in reading order: as any stable sort leaves them if all of them compare, and as
insertion leaves them, which is how up to twenty are sorted. More blocks with some that do not
compare may be sorted otherwise, or not at all; `ordered` is then one order of many. -/
def ordered (w : Workspace) : List Block :=
  stableSort (fun a b ↦ a.comparePosition b == .lt) w.topBlocks

/-- All blocks, from the top blocks in reading order. -/
def allBlocks (w : Workspace) : List Block := w.ordered.flatMap Block.descendants

/-- The first block with an id. -/
def block? (w : Workspace) (id : String) : Option Block := w.allBlocks.find? (·.head.id == id)

end Workspace

end Turtle

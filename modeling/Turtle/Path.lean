/-!
# File names

What the text of a path tells about the file it leads to.
-/

namespace Turtle.Path

/-- The parts of a path between its slashes. An empty part and a single dot lead nowhere. -/
def parts (path : String) : List String :=
  (path.splitOn "/").filter fun part ↦ part != "" && part != "."

/-- The name of the file that a path leads to, unless the path leads to a parent or the root. -/
def fileName? (path : String) : Option String := (parts path).getLast?.filter (· != "..")

/-- The extension of a file name: what follows its last dot, unless that is its first character. -/
def extension? (path : String) : Option String := do
  let name := (← fileName? path).toList.reverse
  if (name.dropWhile (· != '.')).length ≤ 1 then none
  else return String.ofList (name.takeWhile (· != '.')).reverse

end Turtle.Path

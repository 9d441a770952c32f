/-!
# Replacing a phrase

Occurrences are taken from the left and do not overlap.
-/

namespace Turtle.Text

/-- Put `new` for every occurrence of the phrase `p :: ps`. -/
def replace (p : Char) (ps new : List Char) : List Char → List Char
  | [] => []
  | c :: s =>
    if c = p ∧ ps.isPrefixOf s then new ++ replace p ps new (s.drop ps.length)
    else c :: replace p ps new s
termination_by s => s.length

end Turtle.Text

namespace Turtle

/-- `s` with `new` for every occurrence of `phrase`; an empty phrase occurs nowhere. -/
def replace (phrase new s : String) : String :=
  match phrase.toList with
  | [] => s
  | p :: ps => String.ofList (Text.replace p ps new.toList s.toList)

end Turtle

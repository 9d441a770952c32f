import Turtle.Xml.Character

/-!
# Names with namespaces

The names of elements and attributes may have a namespace in front of a colon.
-/

namespace Turtle.Xml

/-- A name, with a namespace in front of a colon or without. -/
structure Name where
  space : Option String := none
  base : String
deriving DecidableEq, Repr

namespace Name

/-- The name that a text writes. Neither side of its colon may be empty. -/
def ofText? (text : List Char) : Option Name :=
  let first := text.takeWhile (· != ':')
  match text.dropWhile (· != ':') with
  | [] => if first = [] then none else some ⟨none, String.ofList first⟩
  | _ :: base =>
    if first = [] ∨ base = [] then none
    else some ⟨some (String.ofList first), String.ofList base⟩

/-- A part of a name, last character first, with one more character. The first character is no
colon, and there is one colon at most. -/
def extend? (text : List Char) (c : Char) : Option (List Char) :=
  let isLegal := match text with
    | [] => isNameStart c && c != ':'
    | text => isNameChar c && !(c == ':' && text.contains ':')
  if isLegal then some (c :: text) else none

end Name

end Turtle.Xml

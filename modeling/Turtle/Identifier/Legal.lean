import Turtle.Text.Digit

/-!
# Legal identifiers

Users name variables and procedures freely. An identifier keeps the letters and digits of ASCII and
the underscore; every other character is spelled out, so that the result is one Logo word.
-/

namespace Turtle.Identifier

/-- The characters of an identifier. -/
def isLegalChar (c : Char) : Bool := c.isAlphanum || c == '_'

/-- The marks that stand for themselves in a URI. -/
def uriMarks : List Char :=
  [';', ',', '/', '?', ':', '@', '&', '=', '+', '$', '-', '.', '!', '~', '*', '\'', '(', ')', '#']

/-- A byte as an underscore and two hexadecimal digits. -/
def spellByte (b : UInt8) : List Char :=
  ['_', Text.hexDigit (b.toNat / 16), Text.hexDigit (b.toNat % 16)]

/-- A character of a name in an identifier: a space or a mark of URIs becomes an underscore, and
what a URI would encode is spelled byte by byte. -/
def spell (c : Char) : List Char :=
  if isLegalChar c then [c]
  else if c == ' ' || uriMarks.contains c then ['_']
  else (String.utf8EncodeChar c).flatMap spellByte

/-- An identifier must not begin with a digit. -/
def guardDigit : List Char → List Char
  | [] => []
  | c :: s => if c.isDigit then 'm' :: 'y' :: '_' :: c :: s else c :: s

/-- The identifier for a name. -/
def ofName (name : List Char) : List Char :=
  if name.isEmpty then "unnamed".toList else guardDigit (name.flatMap spell)

end Turtle.Identifier

namespace Turtle

/-- The identifier for a name, before it is told apart from others. -/
def identifier (name : String) : String := String.ofList (Identifier.ofName name.toList)

end Turtle

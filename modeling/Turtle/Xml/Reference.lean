import Turtle.Text.Digit
import Turtle.Xml.Character

/-!
# References

In texts and in the values of attributes a reference stands for a character, by one of five names
or by its number, or for the text of an entity that the document declares.
-/

namespace Turtle.Xml

/-- The named characters. -/
def namedCharacters : List (String × Char) := [
  ("lt", '<'), ("gt", '>'), ("amp", '&'), ("apos", '\''), ("quot", '"')]

/-- The number that some digits write in a base; there may be a plus sign in front of them. -/
def number? (base : Nat) (digits : List Char) : Option Nat :=
  let digits := if digits.head? = some '+' then digits.tail else digits
  if digits = [] then none
  else digits.foldl (fun n c ↦ do
    let d ← Text.hexValue? c
    if d < base then return (← n) * base + d else none) (some 0)

/-- The character of a number. -/
def Version.character? (v : Version) (n : Nat) : Option Char :=
  if n.isValidChar ∧ v.allows (Char.ofNat n) then some (Char.ofNat n) else none

/-- The character whose number is written in decimal, or in hexadecimal behind `x`. -/
def Version.numbered? (v : Version) : List Char → Option Char
  | 'x' :: digits => number? 16 digits >>= v.character?
  | digits => number? 10 digits >>= v.character?

/-- The entities that a document declares, with their texts. -/
abbrev Entities := List (String × String)

/-- What a reference stands for. -/
inductive Referent where
  | character (c : Char)
  | entity (text : String)
deriving DecidableEq, Repr

/-- The text that a reference stands for. -/
def Referent.text : Referent → List Char
  | character c => [c]
  | entity text => text.toList

/-- What a reference of some name stands for. -/
def Version.referent? (v : Version) (entities : Entities) : List Char → Option Referent
  | '#' :: digits => (v.numbered? digits).map .character
  | name =>
    let name := String.ofList name
    match namedCharacters.lookup name with
    | some c => some (.character c)
    | none => (entities.lookup name).map .entity

/-- A part of the name of a reference, last character first, with one more character. -/
def extendReference? (name : List Char) (c : Char) : Option (List Char) :=
  let isLegal := if name = [] then isNameStart c || c == '#' else isNameChar c
  if isLegal then some (c :: name) else none

end Turtle.Xml

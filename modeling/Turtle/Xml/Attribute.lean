import Turtle.Xml.Name
import Turtle.Xml.Reference
import Turtle.Xml.Token

/-!
# Attributes

The attributes of a tag or of the declaration in front of a document, read token by token.
-/

namespace Turtle.Xml

/-- The value of an attribute, as far as it has been read. -/
structure PartialValue where
  quote : Quote
  /-- The value so far, last character first. -/
  text : List Char := []
  /-- The name so far of the reference that is being read, last character first. -/
  reference : Option (List Char) := none
deriving Repr

/-- Take a token that does not end the value. The text of an entity becomes part of the value as it
is. -/
def PartialValue.extend? (version : Version) (entities : Entities) (v : PartialValue)
    (token : Token) : Option PartialValue :=
  match v.reference, token with
  | some name, .character c =>
    (extendReference? name c).map fun name ↦ { v with reference := some name }
  | some name, .referenceEnd =>
    (version.referent? entities name.reverse).map fun r ↦
      { v with text := r.text.reverse ++ v.text, reference := none }
  | some _, _ => none
  | none, .reference => some { v with reference := some [] }
  | none, .opening => none
  | none, .instruction => none
  | none, .character c => if version.allowsRaw c then some { v with text := c :: v.text } else none
  | none, token => some { v with text := token.text.reverse ++ v.text }

/-- Where in a list of attributes a text stands. -/
inductive AttributePlace where
  /-- Behind white space. -/
  | gap
  /-- In a name, which is last character first. -/
  | name (text : List Char)
  /-- Before an equals sign. -/
  | equals (name : Name)
  /-- Before a value. -/
  | quote (name : Name)
  | value (name : Name) (value : PartialValue)
  /-- Directly behind a value. -/
  | behind
deriving Repr

/-- A list of attributes, as far as it has been read. -/
structure AttributeList where
  /-- The complete attributes, the last one first. -/
  complete : List (Name × String) := []
  place : AttributePlace := .gap
deriving Repr

namespace AttributeList

/-- Whether the list may end here. -/
def mayEnd (a : AttributeList) : Bool :=
  match a.place with
  | .gap => true
  | .behind => true
  | _ => false

/-- Take a token. -/
def read? (version : Version) (entities : Entities) (a : AttributeList) (token : Token) :
    Option AttributeList :=
  match a.place, token with
  | .gap, .character c =>
    if isSpace c then some a
    else (Name.extend? [] c).map fun text ↦ { a with place := .name text }
  | .name text, .equals =>
    (Name.ofText? text.reverse).map fun name ↦ { a with place := .quote name }
  | .name text, .character c =>
    if isSpace c then (Name.ofText? text.reverse).map fun name ↦ { a with place := .equals name }
    else (Name.extend? text c).map fun text ↦ { a with place := .name text }
  | .equals name, .equals => some { a with place := .quote name }
  | .equals _, token => if token.isSpace then some a else none
  | .quote name, .quote q => some { a with place := .value name { quote := q } }
  | .quote _, token => if token.isSpace then some a else none
  | .value name v, token =>
    if token = .quote v.quote ∧ v.reference.isNone then
      some { complete := (name, String.ofList v.text.reverse) :: a.complete, place := .behind }
    else (v.extend? version entities token).map fun v ↦ { a with place := .value name v }
  | .behind, token => if token.isSpace then some { a with place := .gap } else none
  | _, _ => none

end AttributeList

end Turtle.Xml

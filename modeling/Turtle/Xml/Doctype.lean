import Turtle.Xml.Reference
import Turtle.Xml.Token

/-!
# Document types

A document type may declare entities. All else in it is passed over. The name of a parameter
entity, which is used only within the document type, is kept with the `%` in front of it.
-/

namespace Turtle.Xml

/-- The value of an entity, as far as it has been read. -/
structure PartialEntity where
  name : String
  quote : Quote
  /-- The value so far, last character first. -/
  text : List Char := []
deriving Repr

/-- Put text behind the value of an entity. -/
def PartialEntity.write (e : PartialEntity) (text : List Char) : PartialEntity :=
  { e with text := text.reverse ++ e.text }

/-- Where in a document type a text stands. Names and numbers that are being read are last
character first. -/
inductive DoctypePlace where
  /-- Between declarations. -/
  | outside
  | quotation (q : Quote)
  | comment
  /-- In the word that tells the kind of a declaration. -/
  | keyword (letters : List Char)
  /-- In a declaration of which nothing more is needed. -/
  | remainder
  /-- In a reference to a parameter entity, between declarations. -/
  | parameter (name : List Char)
  /-- Before the name of an entity. -/
  | entity
  /-- Behind the `%` in front of the name of an entity. -/
  | entityMark
  | entityName (name : List Char)
  /-- Before the value of an entity. -/
  | entityGap (name : String)
  | value (e : PartialEntity)
  /-- Behind `&` in the value of an entity. -/
  | ampersand (e : PartialEntity)
  /-- In the number of a character in the value of an entity. -/
  | number (e : PartialEntity) (digits : List Char)
  /-- In a reference to a parameter entity, in the value of an entity. -/
  | valueParameter (e : PartialEntity) (name : List Char)
deriving Repr

/-- A document type, as far as it has been read. -/
structure Doctype where
  entities : Entities := []
  place : DoctypePlace := .outside
  /-- The text of the parameter entity that has just been referred to. -/
  inserted : List Char := []
deriving Repr

namespace Doctype

/-- Declare an entity, and pass over the rest of its declaration. The first declaration of a name
counts. -/
def declare (d : Doctype) (name text : String) : Doctype where
  entities := if (d.entities.lookup name).isSome then d.entities else (name, text) :: d.entities
  place := .remainder

/-- A token between declarations. -/
def readOutside? (d : Doctype) : Token → Option Doctype
  | .declaration => some { d with place := .keyword [] }
  | .comment => some { d with place := .comment }
  | .quote q => some { d with place := .quotation q }
  | .character c => some (if c = '%' then { d with place := .parameter [c] } else d)
  | .verbatim => none
  | .verbatimEnd => none
  | _ => some d

/-- A character of the word that tells the kind of a declaration. -/
def readKeyword? (d : Doctype) (letters : List Char) (c : Char) : Option Doctype :=
  if c.isUpper then some { d with place := .keyword (c :: letters) }
  else if isSpace c then
    let word := String.ofList letters.reverse
    if word = "ENTITY" then some { d with place := .entity }
    else if word ∈ ["ELEMENT", "ATTLIST", "NOTATION"] then some { d with place := .remainder }
    else none
  else none

/-- A token before the value of an entity. An entity whose value is kept elsewhere is empty. -/
def readEntityGap? (d : Doctype) (name : String) : Token → Option Doctype
  | .quote quote => some { d with place := .value { name, quote } }
  | .character c =>
    if isSpace c then some d
    else if c = 'S' ∨ c = 'P' then some (d.declare name "")
    else none
  | _ => none

/-- A token of the value of an entity. -/
def readValue? (version : Version) (d : Doctype) (e : PartialEntity) : Token → Option Doctype
  | .quote q =>
    if q = e.quote then some (d.declare e.name (String.ofList e.text.reverse))
    else some { d with place := .value (e.write [q.char]) }
  | .reference => some { d with place := .ampersand e }
  | .character c =>
    if c = '&' then some { d with place := .ampersand e }
    else if c = '%' then some { d with place := .valueParameter e [c] }
    else if version.allows c then some { d with place := .value (e.write [c]) }
    else none
  | _ => none

/-- A token behind `&` in the value of an entity. Named references are left for later. -/
def readAmpersand? (version : Version) (d : Doctype) (e : PartialEntity) : Token → Option Doctype
  | .character c =>
    if c = '#' then some { d with place := .number e [] }
    else if version.allows c then some { d with place := .value (e.write ['&', c]) }
    else none
  | _ => none

/-- Whether a token ends a reference. Within quotations it is not told from other characters. -/
def endsReference (token : Token) : Bool := token == .referenceEnd || token == .character ';'

/-- A token of the number of a character. -/
def readNumber? (version : Version) (d : Doctype) (e : PartialEntity) (digits : List Char)
    (token : Token) : Option Doctype :=
  if endsReference token then
    (version.numbered? digits.reverse).map fun c ↦ { d with place := .value (e.write [c]) }
  else
    match token with
    | .character c => some { d with place := .number e (c :: digits) }
    | _ => none

/-- A token of the name of a parameter entity: more of the name, or the text that it stands for. -/
def readParameter? (d : Doctype) (name : List Char) (token : Token) :
    Option (List Char ⊕ List Char) :=
  if endsReference token then
    (d.entities.lookup (String.ofList name.reverse)).map fun text ↦ .inr text.toList
  else
    match token with
    | .character c => if isNameChar c then some (.inl (c :: name)) else none
    | _ => none

/-- Take a token that does not end the document type. -/
def read? (version : Version) (d : Doctype) (token : Token) : Option Doctype :=
  match d.place, token with
  | .outside, token => d.readOutside? token
  | .quotation q, token => some (if token = .quote q then { d with place := .outside } else d)
  | .comment, token => some (if token = .commentEnd then { d with place := .outside } else d)
  | .keyword letters, .character c => d.readKeyword? letters c
  | .remainder, token => some (if token = .tagEnd then { d with place := .outside } else d)
  | .parameter name, token =>
    (d.readParameter? name token).map fun
      | .inl name => { d with place := .parameter name }
      | .inr inserted => { d with place := .outside, inserted }
  | .entity, .character c =>
    if isSpace c then some d
    else if c = '%' then some { d with place := .entityMark }
    else if isNameStart c then some { d with place := .entityName [c] }
    else none
  | .entityMark, .character c =>
    if isSpace c then some d
    else if isNameStart c then some { d with place := .entityName [c, '%'] }
    else none
  | .entityName name, .character c =>
    if isSpace c then some { d with place := .entityGap (String.ofList name.reverse) }
    else if isNameChar c then some { d with place := .entityName (c :: name) }
    else none
  | .entityGap name, token => d.readEntityGap? name token
  | .value e, token => d.readValue? version e token
  | .ampersand e, token => d.readAmpersand? version e token
  | .number e digits, token => d.readNumber? version e digits token
  | .valueParameter e name, token =>
    (d.readParameter? name token).map fun
      | .inl name => { d with place := .valueParameter e name }
      | .inr text => { d with place := .value (e.write text) }
  | _, _ => none

end Doctype

end Turtle.Xml

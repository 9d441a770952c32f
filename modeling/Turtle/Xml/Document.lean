import Turtle.Xml.Declaration
import Turtle.Xml.Doctype
import Turtle.Xml.Element
import Turtle.Xml.Unread

/-!
# Documents

A document is read token by token, and its tree is built along the way. The text of an entity is
read in place of a reference to it, so that tags may stand in it.
-/

namespace Turtle.Xml

/-! ## Reading tokens -/

/-- A tag that opens an element, as far as it has been read. -/
inductive PartialOpening where
  /-- In the name, which is last character first. -/
  | name (text : List Char)
  | attributes (name : Name) (attributes : AttributeList)
deriving Repr

/-- A tag that closes an element, as far as it has been read. -/
inductive PartialClosing where
  /-- In the name, which is last character first. -/
  | name (text : List Char)
  /-- Behind the name. -/
  | behind (name : Name)
deriving Repr

/-- Where in a document a text stands. Names and texts that are being read are last character
first. -/
inductive Place where
  /-- Between tags. -/
  | content
  /-- In a reference between tags. -/
  | reference (name : List Char)
  | comment
  | verbatim (text : List Char)
  /-- In the name of an instruction. -/
  | target (name : List Char)
  | instruction
  | opening (tag : PartialOpening)
  | closing (tag : PartialClosing)
  | doctype (d : Doctype)
deriving Repr

/-- A document, as far as it has been read. -/
structure Reader where
  version : Version := .v10
  entities : Entities := []
  place : Place := .content
  /-- The text behind the last tag or other markup, last character first. -/
  text : List Char := []
  /-- Whether that text is layout. -/
  layout : Bool := true
  /-- The text of the entity that has just been referred to. -/
  inserted : List Char := []
  progress : Progress := {}

namespace Reader

/-- Whether the text stands within an element. -/
def isWithin (r : Reader) : Bool := !r.progress.unclosed.isEmpty

/-- End the text behind the last markup. Layout is dropped. -/
def flush (r : Reader) : Option Reader := do
  let progress ← if r.text.isEmpty || r.layout then some r.progress
    else r.progress.write (String.ofList r.text.reverse)
  return { r with text := [], layout := true, progress }

/-- Begin markup. -/
def enter (r : Reader) (place : Place) : Option Reader :=
  r.flush.map fun r ↦ { r with place }

/-- A token between tags. Outside of the elements only white space may stand between markup. -/
def readContent? (r : Reader) : Token → Option Reader
  | .opening => r.enter (.opening (.name []))
  | .closing => if r.isWithin then r.enter (.closing (.name [])) else none
  | .comment => r.enter .comment
  | .instruction => r.enter (.target [])
  | .verbatim => if r.isWithin then r.enter (.verbatim []) else none
  | .verbatimEnd => none
  | .declaration => none
  | .doctype => do
    let progress ← r.progress.declareType
    return { r with progress, place := .doctype { entities := r.entities } }
  | .reference => if r.isWithin then some { r with place := .reference [] } else none
  | .character c =>
    if !r.isWithin then if isSpace c then some r else none
    else if r.version.allowsRaw c then
      some { r with text := c :: r.text, layout := r.layout && isSpace c }
    else none
  | token =>
    if r.isWithin then some { r with text := token.text.reverse ++ r.text, layout := false }
    else none

/-- A token of a reference between tags. What the reference adds to the text before it is layout
only if all of it is white space, and there is some. -/
def readReference? (r : Reader) (name : List Char) : Token → Option Reader
  | .character c => (extendReference? name c).map fun name ↦ { r with place := .reference name }
  | .referenceEnd => do
    let (text, inserted) ← match ← r.version.referent? r.entities name.reverse with
      | .character c => some (c :: r.text, [])
      | .entity text => some (r.text, text.toList)
    let layout := r.layout && !text.isEmpty && text.all isSpace
    return { r with place := .content, text, layout, inserted }
  | _ => none

/-- A token of verbatim text. It is kept even if it is white space, but what follows it is layout
only if both are. -/
def readVerbatim? (r : Reader) (text : List Char) : Token → Option Reader
  | .verbatimEnd => do
    let progress ← r.progress.write (String.ofList text.reverse)
    return { r with place := .content, progress }
  | .character c =>
    if r.version.allows c then
      some { r with place := .verbatim (c :: text), layout := r.layout && isSpace c }
    else none
  | _ => none

/-- Whether a name is kept for the declaration in front of a document. -/
def isReservedTarget (name : List Char) : Bool := name.reverse.map Char.toLower == ['x', 'm', 'l']

/-- A token of the name of an instruction. -/
def readTarget? (r : Reader) (name : List Char) : Token → Option Reader
  | .instructionEnd =>
    if name.isEmpty || isReservedTarget name then none else some { r with place := .content }
  | .character c =>
    if (if name.isEmpty then isNameStart c else isNameChar c) then
      some { r with place := .target (c :: name) }
    else if isSpace c && !isReservedTarget name then some { r with place := .instruction }
    else none
  | _ => none

/-- A token that has no meaning but must be legal, in text up to an ending. -/
def skip? (r : Reader) (ending token : Token) : Option Reader :=
  if token = ending then some { r with place := .content }
  else
    match token with
    | .character c => if r.version.allows c then some r else none
    | _ => some r

/-- The start of an element, which ends at once if it is `closed`. -/
def open? (r : Reader) (name : Name) (attributes : List (Name × String)) (closed : Bool) :
    Option Reader := do
  let progress ← r.progress.begin name attributes
  let progress ← if closed then progress.finish name else some progress
  return { r with place := .content, progress }

/-- The end of an element. -/
def close? (r : Reader) (name : Name) : Option Reader := do
  let progress ← r.progress.finish name
  return { r with place := .content, progress }

/-- A token of a tag that opens an element. -/
def readOpening? (r : Reader) (tag : PartialOpening) (token : Token) : Option Reader :=
  let closed := token == .emptyTagEnd
  let isEnd := closed || token == .tagEnd
  match tag with
  | .name text =>
    if isEnd || token.isSpace then do
      let name ← Name.ofText? text.reverse
      if isEnd then r.open? name [] closed
      else return { r with place := .opening (.attributes name {}) }
    else
      match token with
      | .character c =>
        (Name.extend? text c).map fun text ↦ { r with place := .opening (.name text) }
      | _ => none
  | .attributes name attributes =>
    if isEnd && attributes.mayEnd then r.open? name attributes.complete.reverse closed
    else
      (attributes.read? r.version r.entities token).map fun attributes ↦
        { r with place := .opening (.attributes name attributes) }

/-- A token of a tag that closes an element. -/
def readClosing? (r : Reader) : PartialClosing → Token → Option Reader
  | .name text, .tagEnd => do r.close? (← Name.ofText? text.reverse)
  | .name text, .character c =>
    if isSpace c then
      (Name.ofText? text.reverse).map fun name ↦ { r with place := .closing (.behind name) }
    else (Name.extend? text c).map fun text ↦ { r with place := .closing (.name text) }
  | .behind name, .tagEnd => r.close? name
  | .behind _, token => if token.isSpace then some r else none
  | _, _ => none

/-- A token of a document type. -/
def readDoctype? (r : Reader) (d : Doctype) (token : Token) : Option Reader :=
  match d.place, token with
  | .outside, .tagEnd => some { r with place := .content, entities := d.entities }
  | _, _ => do
    let d ← d.read? r.version token
    return { r with place := .doctype { d with inserted := [] }, inserted := d.inserted }

/-- Take a token. -/
def read? (r : Reader) (token : Token) : Option Reader :=
  match r.place with
  | .content => r.readContent? token
  | .reference name => r.readReference? name token
  | .comment => r.skip? .commentEnd token
  | .verbatim text => r.readVerbatim? text token
  | .target name => r.readTarget? name token
  | .instruction => r.skip? .instructionEnd token
  | .opening tag => r.readOpening? tag token
  | .closing tag => r.readClosing? tag token
  | .doctype d => r.readDoctype? d token

/-- The element of the document, if the text ends here. -/
def result (r : Reader) : Option Element :=
  match r.place with
  | .content => r.progress.result
  | _ => none

end Reader

/-! ## Reading documents -/

/-- Read what is left of a document. -/
def Reader.readAll? (r : Reader) (x : Context) (s : Unread) : Option Element :=
  match _hn : s.next? with
  | none => if x = {} then r.result else none
  | some (c, t) =>
    match x.read c with
    | none => none
    | some (tokens, x) =>
      match tokens.foldlM Reader.read? r with
      | none => none
      | some r =>
        match _hi : t.insert? r.inserted with
        | none => none
        | some u => { r with inserted := [] }.readAll? x u
termination_by s.measure
decreasing_by exact Unread.measure_lt _hn _hi

/-- Read a document. -/
def Element.read? (s : String) : Option Element := do
  let (version, rest) ← prolog? s.toList
  Reader.readAll? { version } {} { rest }

end Turtle.Xml

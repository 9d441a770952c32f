import Turtle.Xml.Name

/-!
# Elements

The tree that the tags of an XML text make up. Elements and attributes go by their local names, and
of the text of an element only that directly within it is kept.
-/

namespace Turtle.Xml

/-- An element of a document. -/
structure Element where
  name : String
  /-- The attributes, the last one first. -/
  attributes : List (String × String) := []
  /-- The text directly within the element, without layout. -/
  text : String := ""
  children : List Element := []
deriving Inhabited

namespace Element

/-- The value of an attribute; of two with the same local name the later one counts. -/
def attribute? (e : Element) (name : String) : Option String := e.attributes.lookup name

/-- The first child of a name. -/
def child? (e : Element) (name : String) : Option Element := e.children.find? (·.name == name)

theorem sizeOf_of_mem {e c : Element} (h : c ∈ e.children) : sizeOf c < sizeOf e := by
  have := List.sizeOf_lt_of_mem h
  cases e
  simp_all
  omega

theorem mem_of_child? {e c : Element} {name : String} (h : e.child? name = some c) :
    c ∈ e.children := List.mem_of_find?_eq_some h

end Element

/-! ## Namespaces -/

/-- The namespaces that need no declaration. -/
def reservedSpaces : List String := ["xml", "xmlns"]

/-- The address of a path at the host of the standards that reserve them. -/
def standardAddress (path : List String) : String :=
  "/".intercalate ("http:" :: "" :: ".".intercalate ["www", "w3", "org"] :: path)

/-- The address that `xml` stands for. -/
def xmlAddress : String := standardAddress ["XML", "1998", "namespace"]

/-- The address that `xmlns` stands for. -/
def xmlnsAddress : String := standardAddress ["2000", "xmlns", ""]

/-- Whether an attribute declares a namespace. -/
def isBinding (name : Name) : Bool := name.space == some "xmlns" || name == ⟨none, "xmlns"⟩

/-- Whether a namespace declaration is legal. Of the reserved namespaces only `xml` can be declared,
with its own address; a namespace needs a value; and elements without a namespace cannot be put
into a reserved one. -/
def isLegalBinding : Name → String → Bool
  | ⟨some _, base⟩, value =>
    base != "xmlns" && (base != "xml" || value == xmlAddress) && value != ""
  | ⟨none, _⟩, value => !(xmlAddress :: xmlnsAddress :: reservedSpaces).contains value

/-- Whether the namespace of a name, if there is one, is declared. -/
def isBound (spaces : List String) (name : Name) : Bool := name.space.all spaces.contains

/-! ## Matching tags -/

/-- An element whose end has not been read. -/
structure Unclosed where
  name : Name
  /-- The namespaces declared within the element. -/
  spaces : List String
  attributes : List (String × String)
  text : String
  /-- The children so far, the last one first. -/
  children : List Element

/-- The element, closed. -/
def Unclosed.close (u : Unclosed) : Element where
  name := u.name.base
  attributes := u.attributes
  text := u.text
  children := u.children.reverse

/-- What has been read of a document. -/
structure Progress where
  /-- The open elements, the innermost first. -/
  unclosed : List Unclosed := []
  /-- The first element that was complete. -/
  root : Option Element := none
  /-- A document type has been read. -/
  typed : Bool := false

namespace Progress

/-- A complete element. -/
def add (p : Progress) (e : Element) : Progress :=
  match p.unclosed with
  | [] => { p with root := some (p.root.getD e) }
  | u :: outer => { p with unclosed := { u with children := e :: u.children } :: outer }

/-- Text, which must be within an element. -/
def write (p : Progress) (content : String) : Option Progress :=
  match p.unclosed with
  | [] => none
  | u :: outer => some { p with unclosed := { u with text := u.text ++ content } :: outer }

/-- The start of an element. No attribute may be repeated, and all namespaces must be declared. -/
def begin (p : Progress) (name : Name) (attributes : List (Name × String)) : Option Progress :=
  let (bindings, attributes) := attributes.partition fun (name, _) ↦ isBinding name
  let outerSpaces := match p.unclosed with
    | [] => reservedSpaces
    | u :: _ => u.spaces
  let spaces := bindings.filterMap (fun (name, _) ↦ name.space.map fun _ ↦ name.base) ++ outerSpaces
  let names := attributes.map (·.1)
  if bindings.all (fun (name, value) ↦ isLegalBinding name value) ∧ names.Nodup ∧
      (name :: names).all (isBound spaces) ∧ !name.space.any reservedSpaces.contains then
    some { p with unclosed := {
      name
      spaces
      attributes := (attributes.map fun (name, value) ↦ (name.base, value)).reverse
      text := ""
      children := [] } :: p.unclosed }
  else none

/-- The end of the innermost element, which must have the name. -/
def finish (p : Progress) (name : Name) : Option Progress :=
  match p.unclosed with
  | [] => none
  | u :: outer => if u.name = name then some ({ p with unclosed := outer }.add u.close) else none

/-- A document type, which must be the only one and stand before the first element. -/
def declareType (p : Progress) : Option Progress :=
  if p.typed || p.root.isSome || !p.unclosed.isEmpty then none else some { p with typed := true }

/-- The element of the document, if the text ends here. Of several elements side by side the first
one counts. -/
def result (p : Progress) : Option Element := if p.unclosed.isEmpty then p.root else none

end Progress

end Turtle.Xml

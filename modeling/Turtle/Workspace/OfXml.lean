import Turtle.Emitter.Standard
import Turtle.Number.Reader
import Turtle.Workspace
import Turtle.Workspace.LoadError
import Turtle.Xml.Document

/-!
# Workspaces saved as XML

Blocks are elements. Their fields, inputs and next blocks are children, in the order in which they
are read; of other parts the last one counts.
-/

namespace Turtle

open Xml (Element)

namespace Mutation

/-- The mutation that an element describes. -/
def ofXml (e : Element) : Mutation where
  itemCount := (e.attribute? "items").bind fun items ↦ Text.readWord? items.toList
  params := (e.children.filter (·.name == "arg")).filterMap (·.attribute? "name")
  callee := e.attribute? "name"
  hasReturnValue := (e.attribute? "value").map (· == "1")

/-- Read a mutation by itself. -/
def read (s : String) : LoadM Mutation := do
  return ofXml (← LoadM.require .malformedMutation (Element.read? s))

end Mutation

/-- A field with its name. With an id it refers to a variable, whose name is its text. -/
def FieldValue.ofXml (e : Element) : String × FieldValue :=
  ((e.attribute? "name").getD "",
    match e.attribute? "id" with
    | some id => .variable (some id) (some e.text)
    | none => .text e.text)

namespace Block

/-- A child of the element of a block. -/
inductive Part where
  | field (name : String) (value : FieldValue)
  | input (i : Input Block)
  | next (b : Block)
  | mutation (m : Mutation)
  | comment (c : String)
  /-- An element that is passed over. -/
  | other

namespace Part

/-- The field, if the part is one. -/
def field? : Part → Option (String × FieldValue)
  | field name value => some (name, value)
  | _ => none

/-- The input, if the part is one. -/
def input? : Part → Option (Input Block)
  | input i => some i
  | _ => none

/-- The next block, if the part is one. -/
def next? : Part → Option Block
  | next b => some b
  | _ => none

/-- The mutation, if the part is one. -/
def mutation? : Part → Option Mutation
  | mutation m => some m
  | _ => none

/-- The comment, if the part is one. -/
def comment? : Part → Option String
  | comment c => some c
  | _ => none

end Part

/-- A child with no blocks in it. -/
def Part.ofXml (e : Element) : Part :=
  match e.name with
  | "field" => .field (FieldValue.ofXml e).1 (FieldValue.ofXml e).2
  | "mutation" => .mutation (.ofXml e)
  | "comment" => .comment e.text
  | _ => .other

/-- The shape of the input that an element describes, if it does. -/
def inputShape? (e : Element) : Option Shape :=
  if e.name = "value" then some .value else if e.name = "statement" then some .statement else none

/-- The block that is connected to an input: a real one, or else a shadow. -/
def connected? (e : Element) : Option Element := e.child? "block" <|> e.child? "shadow"

theorem mem_of_connected? {e c : Element} (h : connected? e = some c) : c ∈ e.children := by
  simp only [connected?, Option.orElse_eq_orElse, Option.orElse_eq_or, Option.or_eq_some_iff] at h
  rcases h with h | ⟨_, h⟩ <;> exact Element.mem_of_child? h

/-- The block to which an element links, if it links at all. -/
def linked? (e : Element) : Option Element := if e.name = "next" then e.child? "block" else none

theorem mem_of_linked? {e c : Element} (h : linked? e = some c) : c ∈ e.children := by
  simp only [linked?] at h
  split at h
  · exact Element.mem_of_child? h
  · simp at h

/-- What an element tells of a block by itself. -/
def headOfXml (kind id : String) (e : Element) (parts : List Part) : Head where
  kind := kind
  id := id
  enabled := e.attribute? "disabled" != some "true" &&
    (e.attribute? "disabled-reasons").all (·.isEmpty)
  comment := (parts.filterMap Part.comment?).getLast?
  x := (e.attribute? "x").bind fun x ↦ Binary64.read? x.toList
  y := (e.attribute? "y").bind fun y ↦ Binary64.read? y.toList
  fields := parts.filterMap Part.field?
  mutation := (parts.filterMap Part.mutation?).getLast?.getD {}

/-- The block with some parts. -/
def ofParts (kind id : String) (e : Element) (parts : List Part) : Block where
  head := headOfXml kind id e parts
  inputs := parts.filterMap Part.input?
  next := (parts.filterMap Part.next?).getLast?

/-- The name of an input. -/
def nameOfXml (e : Element) : String := (e.attribute? "name").getD ""

/-- The id of a block. -/
def idOfXml (e : Element) : String := (e.attribute? "id").getD ""

/-- The block that an element describes. -/
def ofXml (e : Element) : LoadM Block := do
  let kind ← LoadM.require .missingType (e.attribute? "type")
  let parts ← e.children.attach.mapM fun ⟨c, _hc⟩ ↦
    match inputShape? c with
    | some shape =>
      match _h : connected? c with
      | none => pure (.input { name := nameOfXml c, shape, target := none })
      | some t =>
        (fun b ↦ .input { name := nameOfXml c, shape, target := some b }) <$>
          LoadM.within (.input (nameOfXml c) (idOfXml e)) (ofXml t)
    | none =>
      match _h : linked? c with
      | none => pure (Part.ofXml c)
      | some t => .next <$> LoadM.within (.next (idOfXml e)) (ofXml t)
  return ofParts kind (idOfXml e) e parts
termination_by sizeOf e
decreasing_by
  · have := Element.sizeOf_of_mem (mem_of_connected? _h)
    have := Element.sizeOf_of_mem _hc
    omega
  · have := Element.sizeOf_of_mem (mem_of_linked? _h)
    have := Element.sizeOf_of_mem _hc
    omega

/-- A part of the block with an id. -/
def partOfXml (id : String) (c : Element) : LoadM Part :=
  match inputShape? c with
  | some shape =>
    match connected? c with
    | none => pure (.input { name := nameOfXml c, shape, target := none })
    | some t =>
      (fun b ↦ .input { name := nameOfXml c, shape, target := some b }) <$>
        LoadM.within (.input (nameOfXml c) id) (ofXml t)
  | none =>
    match linked? c with
    | none => pure (Part.ofXml c)
    | some t => .next <$> LoadM.within (.next id) (ofXml t)

/-- The parts of a block are read in the order of the document. -/
theorem ofXml_eq (e : Element) : ofXml e = (do
    let kind ← LoadM.require .missingType (e.attribute? "type")
    let parts ← e.children.mapM (partOfXml (idOfXml e))
    return ofParts kind (idOfXml e) e parts) := by
  rw [ofXml]
  congr 1
  funext kind
  congr 1
  rw [List.mapM_subtype (g := partOfXml (idOfXml e)), List.unattach_attach]
  intro c _
  simp only [partOfXml]
  cases inputShape? c with
  | some shape => cases connected? c <;> rfl
  | none => cases linked? c <;> rfl

end Block

/-- A variable; without an id it goes by its name. -/
def Variable.ofXml (e : Element) : Variable where
  id := (e.attribute? "id").getD e.text
  name := e.text

namespace Workspace

/-- The variables of a document. -/
def variablesOfXml (root : Element) : List Variable :=
  (root.children.filter (·.name == "variables")).flatMap fun e ↦
    (e.children.filter (·.name == "variable")).map Variable.ofXml

/-- The workspace that a document describes. -/
def ofXml (root : Element) : LoadM Workspace := do
  let blocks := root.children.filter (·.name == "block")
  let topBlocks ← blocks.zipIdx.mapM fun (e, i) ↦ LoadM.within (.topBlock i) (Block.ofXml e)
  return { vars := variablesOfXml root, topBlocks }

/-- Read a workspace that is saved as XML. -/
def readXml (s : String) : LoadM Workspace := do
  ofXml (← LoadM.require .malformedXml (Element.read? s))

end Workspace

end Turtle

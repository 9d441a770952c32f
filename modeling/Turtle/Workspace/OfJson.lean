import Turtle.Emitter.Standard
import Turtle.Json.Printer
import Turtle.Json.Reader
import Turtle.Workspace.OfXml

/-!
# Workspaces saved as JSON

Blocks are objects. A member of the wrong type is passed over like a missing one, but for the type
of a block, its extra state, and the lists of variables and top blocks.
-/

namespace Turtle

namespace Json

/-- The members of an object; other values have none. -/
def members : Json → List (String × Json)
  | object members => members
  | _ => []

/-- The members of the object under a key. -/
def membersOf (key : String) (j : Json) : List (String × Json) :=
  ((j.member? key).map members).getD []

theorem sizeOf_of_mem_members {key : String} {j k : Json} (h : (key, k) ∈ j.members) :
    sizeOf k < sizeOf j := by
  cases j with
  | object entries =>
    have : sizeOf k < sizeOf entries := sizeOf_of_mem h
    simp only [object.sizeOf_spec]
    omega
  | _ => simp [members] at h

theorem sizeOf_of_mem_membersOf {key name : String} {j k : Json}
    (h : (name, k) ∈ j.membersOf key) : sizeOf k < sizeOf j := by
  simp only [membersOf] at h
  cases hm : j.member? key with
  | none => simp [hm] at h
  | some m =>
    simp only [hm, Option.map_some, Option.getD_some] at h
    exact Nat.lt_trans (sizeOf_of_mem_members h) (sizeOf_member hm)

/-- A member that may be missing or null, but must be readable if it is there. -/
def optional? {α : Type} (decode : Json → Option α) : Option Json → Option (Option α)
  | none | some null => some none
  | some j => (decode j).map some

/-- A boolean. -/
def bool? : Json → Option Bool
  | bool b => some b
  | _ => none

/-- A natural number, written as an integer. -/
def natural? : Json → Option Nat
  | number (.integer n) => if 0 ≤ n then some n.toNat else none
  | _ => none

/-- The number nearest to the value, if it is a number. -/
def binary64? : Json → Option Binary64
  | number n => some n.toBinary64
  | _ => none

end Json

/-- The content of a field. Whatever is no text and no reference is spelled out. -/
def FieldValue.ofJson : Json → FieldValue
  | .text s => .text s
  | .number n => .text n.write
  | .bool b => .text (if b then "TRUE" else "FALSE")
  | .null => .text ""
  | .object members => .variable (Json.textOf? "id" (.object members))
      (Json.textOf? "name" (.object members))
  | .array items => .text (Json.write (.array items))

namespace Mutation

/-- A parameter: its name, or an object with its name. -/
def param? : Json → Option String
  | .text s => some s
  | j => j.textOf? "name"

/-- The parameters of a procedure. -/
def params? : Option Json → Option (List String)
  | none => some []
  | some (.array items) => items.mapM param?
  | some _ => none

/-- The mutation that an object describes. -/
def ofObject? (j : Json) : Option Mutation := do
  return {
    itemCount := ← (j.member? "itemCount" |> Json.optional? Json.natural?)
    params := ← params? (j.member? "params")
    callee := ← (j.member? "name" |> Json.optional? Json.text?)
    hasReturnValue := ← (j.member? "hasReturnValue" |> Json.optional? Json.bool?) }

/-- The mutation of the block with an id. Blocks of older kinds have it as a text of XML. -/
def ofJson (id : String) : Json → LoadM Mutation
  | .object members => LoadM.require (.badState id) (ofObject? (.object members))
  | .text s => LoadM.within (.mutation id) (read s)
  | .null => return {}
  | other => LoadM.fail (.unexpectedState other.write id)

end Mutation

namespace Block

/-- Whether a block takes part in the program. Each of three members may say that it does not. -/
def enabledOfJson (j : Json) : Bool :=
  let disabledReasons := match j.member? "disabledReasons" with
    | some (.array reasons) => !reasons.isEmpty
    | _ => false
  (j.member? "enabled").bind Json.bool? != some false &&
    (j.member? "disabled").bind Json.bool? != some true && !disabledReasons

/-- The comment of a block: a text, or an object with its text. -/
def commentOfJson (j : Json) : Option String :=
  match (j.member? "icons").bind (·.member? "comment") <|> j.member? "comment" with
  | some (.text s) => some s
  | some node => node.textOf? "text"
  | none => none

/-- What an object tells of a block by itself. -/
def headOfJson (kind id : String) (j : Json) (mutation : Mutation) : Head where
  kind := kind
  id := id
  enabled := enabledOfJson j
  comment := commentOfJson j
  x := (j.member? "x").bind Json.binary64?
  y := (j.member? "y").bind Json.binary64?
  fields := (j.membersOf "fields").map fun (name, value) ↦ (name, .ofJson value)
  mutation := mutation

/-- The kind of a block. -/
def kindOfJson : Json → LoadM String
  | .object members => LoadM.require .missingType (Json.textOf? "type" (.object members))
  | _ => LoadM.fail .blockNotObject

/-- What is connected to an input: a real block, or else a shadow. -/
def connectedNode? (input : Json) : Option Json := input.member? "block" <|> input.member? "shadow"

theorem sizeOf_of_connectedNode? {input node : Json} (h : connectedNode? input = some node) :
    sizeOf node < sizeOf input := by
  simp only [connectedNode?, Option.orElse_eq_orElse, Option.orElse_eq_or,
    Option.or_eq_some_iff] at h
  rcases h with h | ⟨_, h⟩ <;> exact Json.sizeOf_member h

/-- What follows a block. -/
def nextNode? (j : Json) : Option Json := (j.member? "next").bind (·.member? "block")

theorem sizeOf_of_nextNode? {j node : Json} (h : nextNode? j = some node) :
    sizeOf node < sizeOf j := by
  obtain ⟨_, hn, hb⟩ := Option.bind_eq_some_iff.1 h
  exact Nat.lt_trans (Json.sizeOf_member hb) (Json.sizeOf_member hn)

/-- The shape of an input, which the document does not tell, follows from the block connected to
it. -/
def shapeFor (target : Block) : Shape := (Emitter.shape? target.head.kind).getD .value

/-- An input to which nothing is connected. It counts as one for a value. -/
def emptyInput (name : String) : Input Block := { name, shape := .value, target := none }

/-- An input to which a block is connected. -/
def filledInput (name : String) (target : Block) : Input Block :=
  { name, shape := shapeFor target, target := some target }

/-- The mutation in the extra state of the block with an id, if there is any. -/
def mutationOfJson (id : String) (j : Json) : LoadM Mutation :=
  match j.member? "extraState" with
  | none => pure {}
  | some state => Mutation.ofJson id state

/-- The id of a block. -/
def idOfJson (j : Json) : String := (j.textOf? "id").getD ""

/-- The block that a node describes. -/
def ofJson (j : Json) : LoadM Block := do
  let kind ← kindOfJson j
  let inputs ← (j.membersOf "inputs").attach.mapM fun ⟨(name, input), _hi⟩ ↦
    match _h : connectedNode? input with
    | none => pure (emptyInput name)
    | some node => filledInput name <$> LoadM.within (.input name (idOfJson j)) (ofJson node)
  let next ← match _h : nextNode? j with
    | none => pure none
    | some node => some <$> LoadM.within (.next (idOfJson j)) (ofJson node)
  let mutation ← mutationOfJson (idOfJson j) j
  return { head := headOfJson kind (idOfJson j) j mutation, inputs, next }
termination_by sizeOf j
decreasing_by
  · have := sizeOf_of_connectedNode? _h
    have := Json.sizeOf_of_mem_membersOf _hi
    omega
  · exact sizeOf_of_nextNode? _h

/-- An input of the block with an id. -/
def inputOfJson (id : String) (entry : String × Json) : LoadM (Input Block) :=
  match connectedNode? entry.2 with
  | none => pure (emptyInput entry.1)
  | some node => filledInput entry.1 <$> LoadM.within (.input entry.1 id) (ofJson node)

/-- What follows the block with an id. -/
def nextOfJson (id : String) (j : Json) : LoadM (Option Block) :=
  match nextNode? j with
  | none => pure none
  | some node => some <$> LoadM.within (.next id) (ofJson node)

/-- The inputs of a block are read first, then what follows it, and its extra state last. -/
theorem ofJson_eq (j : Json) : ofJson j = (do
    let kind ← kindOfJson j
    let inputs ← (j.membersOf "inputs").mapM (inputOfJson (idOfJson j))
    let next ← nextOfJson (idOfJson j) j
    let mutation ← mutationOfJson (idOfJson j) j
    return { head := headOfJson kind (idOfJson j) j mutation, inputs, next }) := by
  have hnext : (match _h : nextNode? j with
      | none => pure none
      | some node => some <$> LoadM.within (.next (idOfJson j)) (ofJson node)) =
        nextOfJson (idOfJson j) j := by
    simp only [nextOfJson]
    cases nextNode? j <;> rfl
  rw [ofJson]
  congr 1
  funext kind
  congr 1
  · rw [List.mapM_subtype (g := inputOfJson (idOfJson j)), List.unattach_attach]
    intro entry _
    simp only [inputOfJson]
    cases connectedNode? entry.2 <;> rfl
  · funext inputs
    rw [← hnext]
    cases nextNode? j <;> rfl

end Block

/-- A variable, as an object or as a list of its name and its id. Without an id it goes by its
name. -/
def Variable.ofJson? : Json → Option Variable
  | .object members => do
    let name ← Json.textOf? "name" (.object members)
    let id ← (members.lookup "id" |> Json.optional? Json.text?)
    return { id := id.getD name, name }
  | .array [.text name] => some { id := name, name }
  | .array [.text name, id] => do
    let id ← Json.optional? Json.text? (some id)
    return { id := id.getD name, name }
  | _ => none

namespace Workspace

/-- The variables of a document. -/
def variablesOfJson : Option Json → LoadM (List Variable)
  | none => return []
  | some (.array items) => LoadM.require .badVariables (items.mapM Variable.ofJson?)
  | some _ => LoadM.fail .badVariables

/-- The nodes of the top blocks of a document. -/
def topNodes : Option Json → LoadM (List Json)
  | none => return []
  | some (.array items) => return items
  | some _ => LoadM.fail .blocksNotArray

/-- The workspace that a document describes. -/
def ofJson : Json → LoadM Workspace
  | .object members => do
    let root := Json.object members
    let vars ← variablesOfJson (root.member? "variables")
    let nodes ← topNodes ((root.member? "blocks").bind (·.member? "blocks"))
    let topBlocks ← nodes.zipIdx.mapM fun (node, i) ↦ LoadM.within (.topBlock i) (Block.ofJson node)
    return { vars, topBlocks }
  | _ => LoadM.fail .rootNotObject

/-- Read a workspace that is saved as JSON. -/
def readJson (s : String) : LoadM Workspace :=
  match Json.read s with
  | .ok root => ofJson root
  | .error .invalid => LoadM.fail .malformedJson
  | .error .trailing => LoadM.fail .trailingJson

end Workspace

end Turtle

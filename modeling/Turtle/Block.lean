import Turtle.Number.Binary64

/-!
# Blocks

A program is drawn from blocks. A block has fields, inputs that other blocks connect to, and, in a
chain of statements, a next block. Blocks own what is connected to them, so a block is a tree.
-/

namespace Turtle

/-- How a block, or an input, takes part in a program. -/
inductive Shape where
  /-- It stands in a chain of statements. -/
  | statement
  /-- It is an expression. -/
  | value
deriving DecidableEq, Repr

/-- The content of a field of a block. -/
inductive FieldValue where
  | text (content : String)
  /-- A reference to a variable. -/
  | variable (id name : Option String)
deriving DecidableEq, Repr

/-- The content as text: of a reference its id, or else its name. -/
def FieldValue.toText : FieldValue → String
  | .text content => content
  | .variable id name => (id <|> name).getD ""

/-- What a user has changed about the form of a block. -/
structure Mutation where
  itemCount : Option Nat := none
  /-- The names of the parameters of a procedure, in order. -/
  params : List String := []
  /-- The name of the procedure that is called. -/
  callee : Option String := none
  hasReturnValue : Option Bool := none
deriving DecidableEq, Repr

/-- All there is to a block by itself. -/
structure Head where
  kind : String
  id : String := ""
  enabled : Bool := true
  comment : Option String := none
  x : Option Binary64 := none
  y : Option Binary64 := none
  fields : List (String × FieldValue) := []
  mutation : Mutation := {}
deriving DecidableEq, Repr

namespace Head

/-- The first field of a name. -/
def field? (h : Head) (name : String) : Option FieldValue := h.fields.lookup name

/-- Whether there is a field of a name. -/
def hasField (h : Head) (name : String) : Bool := (h.field? name).isSome

/-- The text of a field; a field that is missing is empty. -/
def field (h : Head) (name : String) : String := ((h.field? name).map FieldValue.toText).getD ""

/-- The comment, unless it is empty. -/
def comment? (h : Head) : Option String := h.comment.filter (· != "")

/-- Whether the block defines a procedure. -/
def isDefinition (h : Head) : Bool :=
  h.kind == "procedures_defreturn" || h.kind == "procedures_defnoreturn"

end Head

/-- A named place of a block where a tree of type `β` may be connected. -/
structure Input (β : Type) where
  name : String
  shape : Shape
  target : Option β
deriving Repr

/-- A block with everything connected to it. -/
structure Block where
  head : Head
  inputs : List (Input Block) := []
  next : Option Block := none

instance : Inhabited Block := ⟨{ head := { kind := "" } }⟩

namespace Block

/-- The first input of a name. -/
def input? (b : Block) (name : String) : Option (Input Block) := b.inputs.find? (·.name == name)

/-- The block connected to the first input of a name. -/
def target? (b : Block) (name : String) : Option Block := (b.input? name).bind (·.target)

theorem sizeOf_target_of_mem {b c : Block} {i : Input Block} (hi : i ∈ b.inputs)
    (hc : i.target = some c) : sizeOf c < sizeOf b := by
  have := List.sizeOf_lt_of_mem hi
  cases b
  cases i
  simp_all
  omega

/-- What the name of an input leads to is connected to an input of that name. -/
theorem exists_input_of_target? {b c : Block} {name : String} (h : b.target? name = some c) :
    ∃ i ∈ b.inputs, i.name = name ∧ i.target = some c := by
  obtain ⟨i, hi, hc⟩ := Option.bind_eq_some_iff.1 h
  exact ⟨i, List.mem_of_find?_eq_some hi, by simpa using List.find?_some hi, hc⟩

/-- What is connected to an input is smaller than the block. -/
theorem sizeOf_target {b c : Block} {name : String} (h : b.target? name = some c) :
    sizeOf c < sizeOf b := by
  obtain ⟨i, hi, -, hc⟩ := exists_input_of_target? h
  exact sizeOf_target_of_mem hi hc

/-- The next block is smaller than the block. -/
theorem sizeOf_next {b c : Block} (h : b.next = some c) : sizeOf c < sizeOf b := by
  cases b
  simp_all
  omega

/-- Induction along inputs and next blocks. -/
@[elab_as_elim] theorem induct {P : Block → Prop}
    (step : ∀ b : Block, (∀ i ∈ b.inputs, ∀ c, i.target = some c → P c) →
      (∀ c, b.next = some c → P c) → P b) (b : Block) : P b :=
  step b (fun _ _hi c _hc ↦ induct step c) fun c _hc ↦ induct step c
termination_by sizeOf b
decreasing_by
  · exact sizeOf_target_of_mem _hi _hc
  · exact sizeOf_next _hc

/-- The block and all blocks connected to it, inputs in order before the next block. -/
def descendants (b : Block) : List Block :=
  let below := b.inputs.attach.flatMap fun i ↦
    match _h : i.1.target with
    | none => []
    | some c => c.descendants
  let after := match _h : b.next with
    | none => []
    | some c => c.descendants
  b :: below ++ after
termination_by sizeOf b
decreasing_by
  · exact sizeOf_target_of_mem i.2 _h
  · exact sizeOf_next _h

theorem descendants_eq (b : Block) : b.descendants =
    b :: b.inputs.flatMap (fun i ↦ (i.target.map descendants).getD []) ++
      (b.next.map descendants).getD [] := by
  rw [descendants]
  congr 1
  · congr 1
    rw [List.flatMap_subtype (g := fun i ↦ (i.target.map descendants).getD []),
      List.unattach_attach]
    intro i _
    cases i.target <;> rfl
  · cases b.next <;> rfl

/-! ## Building blocks -/

/-- A block of a kind with nothing connected. -/
def ofKind (kind id : String) : Block := { head := { kind, id } }

/-- Add a field behind the others. -/
def withField (b : Block) (name : String) (value : FieldValue) : Block :=
  { b with head := { b.head with fields := b.head.fields ++ [(name, value)] } }

/-- Add an input behind the others. -/
def withInput (b : Block) (name : String) (shape : Shape) (target : Option Block) : Block :=
  { b with inputs := b.inputs ++ [{ name, shape, target }] }

/-- Let a block be followed by another one. -/
def withNext (b next : Block) : Block := { b with next := some next }

/-- Give a block a comment. -/
def withComment (b : Block) (comment : String) : Block :=
  { b with head := { b.head with comment := some comment } }

/-- Give a block a mutation. -/
def withMutation (b : Block) (mutation : Mutation) : Block :=
  { b with head := { b.head with mutation } }

/-- Take a block out of the program. -/
def disabled (b : Block) : Block := { b with head := { b.head with enabled := false } }

end Block

end Turtle

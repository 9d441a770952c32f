import Mathlib.Data.List.Nodup
import Mathlib.Data.List.Perm.Subperm
import Turtle.Compile.Compiler
import Turtle.Emitter.Sequence
import Turtle.Proofs.Identifier.Legal

/-!
# The inputs for elements

The inputs for the elements of a list or a text are numbered from zero on.  A block may record how
many elements it has, and then it can record more than there can be room for.  There is room for as
many as are connected, as an input takes more of it than the text of an element.
-/

namespace Turtle

open Logo (Order)

namespace Emitter

/-- The input for an element. -/
def slot (i : Nat) : String := "ADD" ++ toString i

theorem slot_injective : Function.Injective slot := by
  intro i j h
  rw [slot, slot, String.append_right_inj] at h
  have hdigits := congrArg String.toList h
  exact Text.toDigits_injective (by simpa using hdigits)

theorem nodup_slots (n : ℕ) : ((List.range n).map slot).Nodup :=
  List.nodup_range.map slot_injective

/-- What the place of an element demands: the first of two stands before another one. -/
def slotOrder (count i : Nat) : Order := if count = 2 ∧ i = 0 then .atomic else .loose

theorem slotOrder_of_ne {count : Nat} (h : count ≠ 2) (i : Nat) : slotOrder count i = .loose :=
  if_neg fun htwo ↦ h htwo.1

end Emitter

/-- The primitive that puts the elements of a kind of block together. -/
def gatherer? : String → Option String
  | "text_join" => some "word"
  | "lists_create_with" => some "list"
  | _ => none

theorem gatherer?_cases {kind primitive : String} (h : gatherer? kind = some primitive) :
    kind = "text_join" ∧ primitive = "word" ∨ kind = "lists_create_with" ∧ primitive = "list" := by
  unfold gatherer? at h
  split at h
  case h_1 => exact .inl ⟨rfl, (Option.some.inj h).symm⟩
  case h_2 => exact .inr ⟨rfl, (Option.some.inj h).symm⟩
  case h_3 => cases h

namespace Block

open Emitter (slot)

variable {b : Block} {i n : ℕ}

/-- The names of inputs that begin like those of inputs for elements. -/
def slotNames (b : Block) : List String :=
  (b.inputs.map (·.name)).filter fun name ↦ "ADD".toList.isPrefixOf name.toList

/-- The input for an element is there, be it connected or not. -/
def Carries (b : Block) (i : ℕ) : Prop := slot i ∈ b.slotNames

/-- Something is connected to the input for an element. -/
def Connects (b : Block) (i : ℕ) : Prop := ∃ t, b.target? (slot i) = some t

theorem Connects.carries (h : b.Connects i) : b.Carries i := by
  obtain ⟨t, ht⟩ := h
  obtain ⟨input, hinput, hname, -⟩ := exists_input_of_target? ht
  refine List.mem_filter.2 ⟨List.mem_map.2 ⟨input, hinput, hname⟩, ?_⟩
  simp [slot]

/-- There are as many inputs for elements as are numbered without a gap. -/
theorem le_length_slotNames (h : ∀ j < n, b.Carries j) : n ≤ b.slotNames.length := by
  have hsubset : (List.range n).map slot ⊆ b.slotNames := by
    intro name hname
    obtain ⟨j, hj, rfl⟩ := List.mem_map.1 hname
    exact h j (List.mem_range.1 hj)
  have hle := (List.subperm_of_subset (Emitter.nodup_slots n) hsubset).length_le
  rw [List.length_map, List.length_range] at hle
  exact hle

/-! ## Room -/

/-- As many elements as the block records, or as there are inputs for them. -/
def elementCount (b : Block) : ℕ := b.head.mutation.itemCount.getD b.slotNames.length

/-- There is room for all elements. -/
def HasRoom (b : Block) : Prop := b.elementCount ≤ max Emitter.textLimit b.inputs.length

theorem hasRoom_of_le_length (h : b.elementCount ≤ b.slotNames.length) : b.HasRoom := by
  have hle := List.length_filter_le (fun name : String ↦ "ADD".toList.isPrefixOf name.toList)
    (b.inputs.map (·.name))
  rw [List.length_map] at hle
  exact Nat.le_trans (Nat.le_trans h hle) (Nat.le_max_right ..)

theorem hasRoom_of_le_limit (h : b.elementCount ≤ Emitter.textLimit) : b.HasRoom :=
  Nat.le_trans h (Nat.le_max_left ..)

theorem hasRoom_of_unrecorded (h : b.head.mutation.itemCount = none) : b.HasRoom :=
  hasRoom_of_le_length (Nat.le_of_eq (by rw [elementCount, h, Option.getD_none]))

/-- There is room for the elements if something is connected for each of them. -/
theorem hasRoom_of_connects (h : ∀ i < b.elementCount, b.Connects i) : b.HasRoom :=
  hasRoom_of_le_length (le_length_slotNames fun i hi ↦ (h i hi).carries)

end Block

namespace Compiler

variable (c : Compiler) (e : Emitter) (b : Block)

theorem itemCount_view : Emitter.itemCount (c.view e b) = b.elementCount :=
  congrArg (Option.getD _) List.countP_eq_length_filter

theorem itemCount_le_capacity_iff :
    Emitter.itemCount (c.view e b) ≤ Emitter.capacity (c.view e b) ↔ b.HasRoom := by
  have hcapacity : Emitter.capacity (c.view e b) = max Emitter.textLimit b.inputs.length :=
    congrArg (max _) (List.length_map _)
  rw [itemCount_view, hcapacity, Block.HasRoom]

end Compiler

end Turtle

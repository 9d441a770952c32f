import Turtle.Compile.Comment

/-!
# What stands below and behind a block

The blocks connected to a block are those below its inputs and those behind it.  Of a chain of blocks
the disabled ones are skipped, and a block without any comment below or behind it is silent.
-/

namespace Turtle

theorem join_eq_empty {l : List String} (h : ∀ s ∈ l, s = "") : String.join l = "" := by
  induction l with
  | nil => rfl
  | cons s l ih =>
    rw [String.join_cons, h s List.mem_cons_self, String.empty_append,
      ih fun s' hs' ↦ h s' (List.mem_cons_of_mem s hs')]

/-- What is connected to an input, with everything below. -/
def Input.tree (i : Input Block) : List Block := (i.target.map Block.descendants).getD []

namespace Block

variable {b c d : Block}

/-- The blocks below all inputs. -/
def inner (b : Block) : List Block := b.inputs.flatMap Input.tree

/-- The blocks from the next one on. -/
def behind (b : Block) : List Block := (b.next.map descendants).getD []

/-- The blocks below and behind a block. -/
def strict (b : Block) : List Block := b.inner ++ b.behind

theorem descendants_eq_append (b : Block) : b.descendants = b :: b.inner ++ b.behind :=
  b.descendants_eq

theorem mem_descendants_iff : d ∈ b.descendants ↔ d = b ∨ d ∈ b.strict := by
  rw [descendants_eq_append, List.cons_append, List.mem_cons, strict]

theorem self_mem_descendants (b : Block) : b ∈ b.descendants := mem_descendants_iff.2 (.inl rfl)

theorem subset_strict_of_input {i : Input Block} (hi : i ∈ b.inputs) (hc : i.target = some c) :
    c.descendants ⊆ b.strict := fun d hd ↦
  List.mem_append_left _ (List.mem_flatMap.2 ⟨i, hi, by rw [Input.tree, hc]; exact hd⟩)

theorem subset_strict_of_target {name : String} (hc : b.target? name = some c) :
    c.descendants ⊆ b.strict := by
  obtain ⟨i, hi, -, hic⟩ := exists_input_of_target? hc
  exact subset_strict_of_input hi hic

theorem subset_strict_of_next (hc : b.next = some c) : c.descendants ⊆ b.strict := fun d hd ↦
  List.mem_append_right _ (by rw [behind, hc]; exact hd)

theorem strict_subset_descendants (b : Block) : b.strict ⊆ b.descendants := fun _ hd ↦
  mem_descendants_iff.2 (.inr hd)

/-- Induction along what the names of inputs lead to, and next blocks. -/
@[elab_as_elim] theorem induct_target {P : Block → Prop}
    (step : ∀ b : Block, (∀ input c, b.target? input = some c → P c) →
      (∀ c, b.next = some c → P c) → P b) (b : Block) : P b := by
  induction b using induct with
  | step b hinputs hnext =>
    apply step b
    · intro input c hc
      obtain ⟨i, hi, -, hic⟩ := exists_input_of_target? hc
      exact hinputs i hi c hic
    · exact hnext

section Everywhere

variable {P : Block → Prop} (h : ∀ d ∈ b.descendants, P d)
include h

theorem forall_of_input {i : Input Block} (hi : i ∈ b.inputs) (hc : i.target = some c) :
    ∀ d ∈ c.descendants, P d := fun d hd ↦
  h d (b.strict_subset_descendants (subset_strict_of_input hi hc hd))

theorem forall_of_target {name : String} (hc : b.target? name = some c) :
    ∀ d ∈ c.descendants, P d := fun d hd ↦
  h d (b.strict_subset_descendants (subset_strict_of_target hc hd))

theorem forall_of_next (hc : b.next = some c) : ∀ d ∈ c.descendants, P d := fun d hd ↦
  h d (b.strict_subset_descendants (subset_strict_of_next hc hd))

end Everywhere

/-- What is below or behind a block is below an input or behind the block. -/
theorem mem_strict_iff : d ∈ b.strict ↔
    (∃ i ∈ b.inputs, ∃ c, i.target = some c ∧ d ∈ c.descendants) ∨
      ∃ c, b.next = some c ∧ d ∈ c.descendants := by
  constructor
  · intro hd
    rcases List.mem_append.1 hd with hd | hd
    · obtain ⟨i, hi, hd⟩ := List.mem_flatMap.1 hd
      refine .inl ⟨i, hi, ?_⟩
      rw [Input.tree] at hd
      cases hc : i.target with
      | none =>
        rw [hc] at hd
        cases hd
      | some c =>
        rw [hc] at hd
        exact ⟨c, rfl, hd⟩
    · rw [behind] at hd
      refine .inr ?_
      cases hc : b.next with
      | none =>
        rw [hc] at hd
        cases hd
      | some c =>
        rw [hc] at hd
        exact ⟨c, rfl, hd⟩
  · rintro (⟨i, hi, c, hc, hd⟩ | ⟨c, hc, hd⟩)
    · exact subset_strict_of_input hi hc hd
    · exact subset_strict_of_next hc hd

theorem descendants_subset (h : d ∈ b.descendants) : d.descendants ⊆ b.descendants := by
  induction b using induct with
  | step b hinputs hnext =>
    rcases mem_descendants_iff.1 h with rfl | h
    · exact fun _ ↦ id
    · refine List.Subset.trans ?_ b.strict_subset_descendants
      rcases mem_strict_iff.1 h with ⟨i, hi, c, hc, h⟩ | ⟨c, hc, h⟩
      · exact List.Subset.trans (hinputs i hi c hc h) (subset_strict_of_input hi hc)
      · exact List.Subset.trans (hnext c hc h) (subset_strict_of_next hc)

/-! ## Disabled blocks -/

/-- The first enabled block from a block on. -/
def firstEnabled (b : Block) : Option Block :=
  if b.head.enabled then some b
  else match _h : b.next with
    | none => none
    | some next => next.firstEnabled
termination_by sizeOf b
decreasing_by exact sizeOf_next _h

theorem firstEnabled_of_enabled (h : b.head.enabled) : b.firstEnabled = some b := by
  rw [firstEnabled, if_pos h]

theorem firstEnabled_of_disabled (h : ¬ b.head.enabled) :
    b.firstEnabled = b.next.bind firstEnabled := by
  rw [firstEnabled, if_neg h]
  cases b.next <;> rfl

/-! ## Blocks without comments -/

/-- Neither the block nor any block connected to it has a comment. -/
def IsSilent (b : Block) : Prop := ∀ d ∈ b.descendants, d.head.comment? = none

namespace IsSilent

theorem head (h : b.IsSilent) : b.head.comment? = none := h b b.self_mem_descendants

theorem strict (h : b.IsSilent) (hc : c.descendants ⊆ b.strict) : c.IsSilent := fun d hd ↦
  h d (b.strict_subset_descendants (hc hd))

theorem next (h : b.IsSilent) (hc : b.next = some c) : c.IsSilent :=
  h.strict (subset_strict_of_next hc)

theorem input (h : b.IsSilent) {i : Input Block} (hi : i ∈ b.inputs) (hc : i.target = some c) :
    c.IsSilent := h.strict (subset_strict_of_input hi hc)

theorem target (h : b.IsSilent) {name : String} (hc : b.target? name = some c) : c.IsSilent :=
  h.strict (subset_strict_of_target hc)

theorem nestedComments (h : b.IsSilent) : b.nestedComments = "" := by
  rw [Block.nestedComments, List.filterMap_eq_nil_iff.2 h]
  rfl

/-- A block without comments is written without comments. -/
theorem comments (h : b.IsSilent) (width : Nat) : b.comments width = "" := by
  have hown : b.ownComment width = "" := by rw [ownComment, h.head]
  have hinputs : b.inputComments = "" := by
    refine join_eq_empty fun s hs ↦ ?_
    obtain ⟨i, hi, rfl⟩ := List.mem_map.1 hs
    split
    · rename_i c _ hc
      rw [if_pos (beq_iff_eq.2 (h.input hi hc).nestedComments)]
    · rfl
  rw [Block.comments, hown, hinputs, String.append_empty]

end IsSilent

end Block

end Turtle

import Mathlib.Data.List.Pairwise
import Turtle.Proofs.Compile.Program
import Turtle.Proofs.Workspace.Order

/-!
# Layout decides the program

The top blocks are read in the order of their positions, and where two positions agree in the order
of the document.  If no two agree, nothing of the order of the document is left, neither in the names
that a pass starts with nor in the order in which the blocks are compiled.
-/

namespace Turtle

/-- Two blocks are told apart by their places. -/
def Block.IsApart (a b : Block) : Prop := a.comparePosition b ≠ .eq

namespace Block.IsApart

variable {a b : Block}

instance : Decidable (a.IsApart b) := inferInstanceAs (Decidable (a.comparePosition b ≠ .eq))

theorem symm (h : a.IsApart b) : b.IsApart a := by
  rwa [IsApart, comparePosition_swap, ne_eq, Ordering.swap_eq_eq]

instance : Std.Symm IsApart := ⟨fun _ _ ↦ symm⟩

theorem position_ne (h : a.IsApart b) : a.position ≠ b.position := by
  have hcompare := (compares_of_ne h).comparePosition_eq
  rwa [IsApart, hcompare, ne_eq, compare_eq_iff_eq] at h

end Block.IsApart

namespace Workspace

variable {w w' : Workspace}

/-- Top blocks that are told apart are sorted by their positions. -/
theorem ordered_eq_of_apart (h : w.topBlocks.Pairwise Block.IsApart) :
    w.ordered = stableSort (byKey Block.position) w.topBlocks := by
  refine stableSort_congr fun a ha b hb ↦ ?_
  rw [byKey, Bool.eq_iff_iff, beq_iff_eq, decide_eq_true_iff]
  by_cases hab : a = b
  · subst hab
    refine iff_of_false (fun hlt ↦ ?_) (lt_irrefl _)
    have hswap := Block.comparePosition_swap a a
    rw [hlt] at hswap
    cases hswap
  · exact Block.comparePosition_eq_lt_iff_of_ne (h.forall ha hb hab)

/-- If the top blocks are told apart, they are read in the same order wherever they stand in the
document. -/
theorem ordered_eq_of_perm (h : w.topBlocks.Pairwise Block.IsApart)
    (hperm : w'.topBlocks.Perm w.topBlocks) : w'.ordered = w.ordered := by
  have h' : w'.topBlocks.Pairwise Block.IsApart :=
    (hperm.pairwise_iff fun hab ↦ Block.IsApart.symm hab).2 h
  rw [ordered_eq_of_apart h', ordered_eq_of_apart h]
  refine stableSort_eq_of_perm hperm fun a ha b hb hposition ↦ ?_
  by_contra hab
  exact (h'.forall ha hb hab).position_ne hposition

end Workspace

/-- The top blocks are all there, in the order of their positions, and those of one position are in
the order of the document.  So if all are told apart, the order of the document makes no difference
to the program, whatever compiles it. -/
theorem Compiler.program_perm (w : Workspace) :
    ((∀ b ∈ w.topBlocks, b.IsPlaced) →
      (∀ a ∈ w.topBlocks, ∀ b ∈ w.topBlocks, a.comparePosition b = compare a.position b.position) ∧
      w.ordered.Perm w.topBlocks ∧
      w.ordered.Pairwise (fun a b ↦ a.position ≤ b.position) ∧
      ∀ place, w.ordered.filter (·.position = place) = w.topBlocks.filter (·.position = place)) ∧
    (w.topBlocks.Pairwise Block.IsApart →
      ∀ w' : Workspace, w'.vars = w.vars → w'.topBlocks.Perm w.topBlocks →
        ∀ c : Compiler, c.program w' = c.program w) := by
  refine ⟨fun hplaced ↦ ⟨?_, perm_stableSort w.topBlocks, ?_, fun place ↦ ?_⟩, ?_⟩
  · exact fun a ha b hb ↦ Block.comparePosition_eq_compare (hplaced a ha) (hplaced b hb)
  · rw [Workspace.ordered_eq hplaced]
    exact pairwise_stableSort w.topBlocks
  · rw [Workspace.ordered_eq hplaced]
    exact filter_stableSort place w.topBlocks
  · intro hapart w' hvars hperm c
    exact c.program_congr hvars (Workspace.ordered_eq_of_perm hapart hperm)

/-- Procedures with these names at these heights. -/
def Workspace.scattered (procedures : List (String × Int)) : Workspace where
  topBlocks := procedures.map fun (name, height) ↦
    let b := (Block.ofKind "procedures_defnoreturn" name).withField "NAME" (.text name)
    { b with head := { b.head with y := some (.ofInt height) } }

/-- The identifiers of both names are derived from `a_b`, and the upper block has the first choice
also if it comes second. -/
theorem Compiler.program_perm_scattered :
    (∀ b ∈ (Workspace.scattered [("a b", 2), ("a?b", 1)]).topBlocks, b.IsPlaced) ∧
      (Workspace.scattered [("a b", 2), ("a?b", 1)]).ordered.Pairwise
        (fun a b ↦ a.position ≤ b.position) ∧
      (Workspace.scattered [("a b", 2), ("a?b", 1)]).topBlocks.Pairwise Block.IsApart ∧
      ∀ c : Compiler, c.program (Workspace.scattered [("a?b", 1), ("a b", 2)]) =
        c.program (Workspace.scattered [("a b", 2), ("a?b", 1)]) := by
  have hplaced : ∀ b ∈ (Workspace.scattered [("a b", 2), ("a?b", 1)]).topBlocks, b.IsPlaced := by
    decide +kernel
  have hapart : (Workspace.scattered [("a b", 2), ("a?b", 1)]).topBlocks.Pairwise Block.IsApart := by
    decide +kernel
  obtain ⟨hsorted, hprogram⟩ := program_perm (Workspace.scattered [("a b", 2), ("a?b", 1)])
  refine ⟨hplaced, (hsorted hplaced).2.2.1, hapart, ?_⟩
  exact hprogram hapart (Workspace.scattered [("a?b", 1), ("a b", 2)]) rfl (.swap _ _ _)

end Turtle

import Mathlib.Order.ConditionallyCompleteLattice.Basic
import Mathlib.Data.Int.ConditionallyCompleteOrder
import Mathlib.Data.Prod.Lex
import Turtle.Proofs.Workspace.Sorting

/-!
# The order of blocks on the canvas

Top blocks are sorted by where they lie.  Without coordinates that are not numbers, their order is
that of a linearly ordered key.
-/

namespace Turtle

/-! ## Positions -/

/-- The place of a double in the order of numbers and infinities. -/
def Binary64.rank : Binary64 → WithBot (WithTop ℤ)
  | .nan => ⊥
  | .infinity negative => if negative then ⊥ else (⊤ : WithTop ℤ)
  | .finite negative units => ((signedUnits negative units : WithTop ℤ) : WithBot (WithTop ℤ))

namespace Binary64

variable {a b : Binary64}

theorem compare?_eq_lt_iff (ha : a ≠ .nan) (hb : b ≠ .nan) :
    compare? a b = some .lt ↔ a.rank < b.rank := by
  have htop (n : ℤ) : ((n : WithTop ℤ) : WithBot (WithTop ℤ)) < ⊤ :=
    WithBot.coe_lt_coe.2 (WithTop.coe_lt_top n)
  rcases a with _ | (_ | _) | ⟨s, x⟩ <;> rcases b with _ | (_ | _) | ⟨t, y⟩ <;>
    simp_all [compare?, rank, compare_lt_iff_lt]

theorem compare?_eq_eq_iff (ha : a ≠ .nan) (hb : b ≠ .nan) :
    compare? a b = some .eq ↔ a.rank = b.rank := by
  rcases a with _ | (_ | _) | ⟨s, x⟩ <;> rcases b with _ | (_ | _) | ⟨t, y⟩ <;>
    simp_all [compare?, rank]

/-- What compares is a number. -/
theorem ne_nan_of_compare? {o : Ordering} (h : compare? a b = some o) : a ≠ .nan ∧ b ≠ .nan := by
  constructor
  · rintro rfl
    cases h
  · rintro rfl
    cases a <;> cases h

/-- Doubles compare the other way round from the other side. -/
theorem compare?_swap (a b : Binary64) : compare? b a = (compare? a b).map Ordering.swap := by
  cases a with
  | nan => cases b <;> rfl
  | infinity s =>
    cases b with
    | nan => rfl
    | infinity t => exact congrArg some Std.OrientedOrd.eq_swap
    | finite t y => cases s <;> rfl
  | finite s x =>
    cases b with
    | nan => rfl
    | infinity t => cases t <;> rfl
    | finite t y => exact congrArg some Std.OrientedOrd.eq_swap

/-- Numbers and infinities compare as their places do. -/
theorem compare?_eq_compare (ha : a ≠ .nan) (hb : b ≠ .nan) :
    compare? a b = some (compare a.rank b.rank) := by
  rcases lt_trichotomy a.rank b.rank with h | h | h
  · rw [(compare?_eq_lt_iff ha hb).2 h, compare_lt_iff_lt.2 h]
  · rw [(compare?_eq_eq_iff ha hb).2 h, compare_eq_iff_eq.2 h]
  · rw [compare?_swap, (compare?_eq_lt_iff hb ha).2 h, compare_gt_iff_gt.2 h]
    rfl

end Binary64

namespace Block

/-- The block has no coordinate that is not a number. -/
def IsPlaced (b : Block) : Prop := b.head.x ≠ some .nan ∧ b.head.y ≠ some .nan

instance (b : Block) : Decidable b.IsPlaced :=
  inferInstanceAs (Decidable (b.head.x ≠ some .nan ∧ b.head.y ≠ some .nan))

/-- The place of a block in the order of heights. -/
def height (b : Block) : WithBot (WithTop ℤ) := (sortKey b.head.y).rank

/-- The key of the order on the canvas. -/
def position (b : Block) : WithBot (WithTop ℤ) ×ₗ WithBot (WithTop ℤ) :=
  toLex ((sortKey b.head.y).rank, (sortKey b.head.x).rank)

theorem sortKey_eq_nan_iff {coordinate : Option Binary64} :
    sortKey coordinate = .nan ↔ coordinate = some .nan := by
  cases coordinate with
  | none => exact ⟨nofun, nofun⟩
  | some x => exact (Option.some_inj (a := x)).symm

/-- Two blocks compare if every coordinate that is looked at is a number or infinite: the heights,
and the other coordinates if the heights agree. -/
def Compares (a b : Block) : Prop :=
  a.head.y ≠ some .nan ∧ b.head.y ≠ some .nan ∧
    (a.height = b.height → a.head.x ≠ some .nan ∧ b.head.x ≠ some .nan)

section Comparison

variable {a b : Block}

instance : Decidable (a.Compares b) :=
  inferInstanceAs (Decidable (a.head.y ≠ some .nan ∧ b.head.y ≠ some .nan ∧
    (a.height = b.height → a.head.x ≠ some .nan ∧ b.head.x ≠ some .nan)))

theorem Compares.symm (h : a.Compares b) : b.Compares a :=
  ⟨h.2.1, h.1, fun heq ↦ (h.2.2 heq.symm).symm⟩

theorem IsPlaced.compares (ha : a.IsPlaced) (hb : b.IsPlaced) : a.Compares b :=
  ⟨ha.2, hb.2, fun _ ↦ ⟨ha.1, hb.1⟩⟩

/-- Blocks compare the other way round from the other side. -/
theorem comparePosition_swap (a b : Block) :
    b.comparePosition a = (a.comparePosition b).swap := by
  rw [comparePosition, comparePosition, Binary64.compare?_swap (sortKey a.head.y),
    Binary64.compare?_swap (sortKey a.head.x)]
  cases Binary64.compare? (sortKey a.head.y) (sortKey b.head.y) with
  | none => rfl
  | some o => cases o <;> cases Binary64.compare? (sortKey a.head.x) (sortKey b.head.x) <;> rfl

/-- Blocks that compare do so as their positions. -/
theorem Compares.comparePosition_eq (h : a.Compares b) :
    a.comparePosition b = compare a.position b.position := by
  obtain ⟨ha, hb, hx⟩ := h
  rw [comparePosition, Binary64.compare?_eq_compare (mt sortKey_eq_nan_iff.1 ha)
    (mt sortKey_eq_nan_iff.1 hb)]
  change _ = (compare a.height b.height).then
    (compare (sortKey a.head.x).rank (sortKey b.head.x).rank)
  cases hy : compare a.height b.height with
  | lt | gt =>
    rw [height, height] at hy
    rw [hy]
    rfl
  | eq =>
    obtain ⟨hax, hbx⟩ := hx (compare_eq_iff_eq.1 hy)
    rw [height, height] at hy
    rw [hy, Binary64.compare?_eq_compare (mt sortKey_eq_nan_iff.1 hax)
      (mt sortKey_eq_nan_iff.1 hbx)]
    rfl

/-- Blocks that are told apart compare. -/
theorem compares_of_ne (h : a.comparePosition b ≠ .eq) : a.Compares b := by
  rw [comparePosition] at h
  cases hy : Binary64.compare? (sortKey a.head.y) (sortKey b.head.y) with
  | none => simp [hy] at h
  | some o =>
    obtain ⟨hay, hby⟩ := Binary64.ne_nan_of_compare? hy
    refine ⟨mt sortKey_eq_nan_iff.2 hay, mt sortKey_eq_nan_iff.2 hby, fun heq ↦ ?_⟩
    -- The other coordinates told the blocks apart, so they are numbers.
    rw [(Binary64.compare?_eq_eq_iff hay hby).2 heq] at h
    cases hx : Binary64.compare? (sortKey a.head.x) (sortKey b.head.x) with
    | none => simp [hx] at h
    | some o =>
      obtain ⟨hax, hbx⟩ := Binary64.ne_nan_of_compare? hx
      exact ⟨mt sortKey_eq_nan_iff.2 hax, mt sortKey_eq_nan_iff.2 hbx⟩

/-- Blocks that are placed compare as their positions do. -/
theorem comparePosition_eq_compare (ha : a.IsPlaced) (hb : b.IsPlaced) :
    a.comparePosition b = compare a.position b.position := (ha.compares hb).comparePosition_eq

/-- Blocks that are told apart are in the order of their positions, whatever the coordinates are
that are not looked at. -/
theorem comparePosition_eq_lt_iff_of_ne (h : a.comparePosition b ≠ .eq) :
    a.comparePosition b = .lt ↔ a.position < b.position := by
  rw [(compares_of_ne h).comparePosition_eq, compare_lt_iff_lt]

end Comparison

end Block

namespace Workspace

variable {w : Workspace}

/-- Top blocks that are placed are sorted by their positions. -/
theorem ordered_eq (h : ∀ b ∈ w.topBlocks, b.IsPlaced) :
    w.ordered = stableSort (byKey Block.position) w.topBlocks := by
  refine stableSort_congr fun a ha b hb ↦ ?_
  rw [byKey, Bool.eq_iff_iff, beq_iff_eq, decide_eq_true_iff,
    Block.comparePosition_eq_compare (h a ha) (h b hb), compare_lt_iff_lt]

end Workspace

end Turtle

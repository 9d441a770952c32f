import Mathlib.Algebra.Group.Nat.Defs
import Turtle.Number.Binary64

/-!
# Finite numbers

Rounding to a whole number of units moves a magnitude to at most twice as much.  So an integer of
64 bits is a finite number, and adding one to a number gives a number again.
-/

namespace Turtle

namespace Binary64

variable {x y : Binary64}

/-- The value is a number and not infinite. -/
def IsFinite (x : Binary64) : Prop := ∃ negative units, x = .finite negative units

theorem IsFinite.ne_nan (h : x.IsFinite) : x ≠ .nan := by
  obtain ⟨negative, units, rfl⟩ := h
  exact nofun

theorem nearest_le (num den : Nat) : nearest num den ≤ num / den + 1 := by
  simp only [nearest]
  split
  · exact Nat.le_refl _
  · exact Nat.le_succ _

/-- The bits that are rounded away are some of those that a magnitude has. -/
theorem pow_spareBits_le (units : Nat) : 2 ^ spareBits units ≤ units + 1 := by
  by_cases hunits : units = 0
  · subst hunits
    exact Nat.le_refl _
  · calc 2 ^ spareBits units
      _ ≤ 2 ^ units.log2 := Nat.pow_le_pow_right (by decide) (Nat.sub_le _ _)
      _ ≤ units := Nat.log2_self_le hunits
      _ ≤ units + 1 := Nat.le_succ _

theorem roundUnits_le (units : Nat) : roundUnits units 1 ≤ 2 * units + 1 := by
  simp only [roundUnits, Nat.div_one, Nat.shiftLeft_eq, Nat.one_mul]
  calc nearest units (2 ^ spareBits units) * 2 ^ spareBits units
    _ ≤ (units / 2 ^ spareBits units + 1) * 2 ^ spareBits units :=
      Nat.mul_le_mul_right _ (nearest_le _ _)
    _ = units / 2 ^ spareBits units * 2 ^ spareBits units + 2 ^ spareBits units :=
      Nat.succ_mul _ _
    _ ≤ units + (units + 1) := Nat.add_le_add (Nat.div_mul_le_self _ _) (pow_spareBits_le units)
    _ = 2 * units + 1 := by omega

/-- An integer of 64 bits is far from infinity. -/
theorem roundUnits_lt_limit {n : Nat} (h : n ≤ 2 ^ 64) : roundUnits (n * one) 1 < limit := by
  have hbound : 2 * (2 ^ 64 * one) + 1 < limit := by decide +kernel
  generalize one = unit at hbound ⊢
  calc roundUnits (n * unit) 1
    _ ≤ 2 * (n * unit) + 1 := roundUnits_le _
    _ ≤ 2 * (2 ^ 64 * unit) + 1 :=
      Nat.succ_le_succ (Nat.mul_le_mul_left _ (Nat.mul_le_mul_right _ h))
    _ < limit := hbound

theorem isFinite_ofRatio {n : Nat} (h : n ≤ 2 ^ 64) (negative : Bool) :
    (ofRatio negative n 1).IsFinite := by
  refine ⟨negative, roundUnits (n * one) 1, ?_⟩
  simp only [ofRatio, round]
  rw [if_pos (roundUnits_lt_limit h)]

theorem isFinite_ofInt {i : Int} (h : i.natAbs ≤ 2 ^ 64) : (ofInt i).IsFinite :=
  isFinite_ofRatio h _

theorem neg_eq_nan_iff : -x = .nan ↔ x = .nan := by
  cases x with
  | nan => exact Iff.rfl
  | infinity | finite => exact ⟨nofun, nofun⟩

/-- The sum with a finite number is a number if there is one to add to. -/
theorem add_finite_eq_nan_iff (negative : Bool) (units : Nat) :
    x + .finite negative units = .nan ↔ x = .nan := by
  cases x with
  | nan => exact Iff.rfl
  | infinity => exact ⟨nofun, nofun⟩
  | finite negative' units' =>
    constructor
    · intro h
      change (if _ then _ else round _ _ _) = Binary64.nan at h
      simp only [round] at h
      split at h
      · cases h
      · split at h <;> cases h
    · nofun

theorem add_ofInt_eq_nan_iff {i : Int} (h : i.natAbs ≤ 2 ^ 63) : x + ofInt i = .nan ↔ x = .nan := by
  obtain ⟨negative, units, hi⟩ := isFinite_ofInt (i := i) (Nat.le_trans h (by decide))
  rw [hi]
  exact add_finite_eq_nan_iff negative units

end Binary64

end Turtle

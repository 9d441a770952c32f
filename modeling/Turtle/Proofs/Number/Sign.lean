import Mathlib.Tactic.ByContra
import Turtle.Number.Reader

/-!
# The sign of a number in a program

A number is written with a minus sign exactly if it is less than zero.
-/

namespace Turtle

namespace Decimal

theorem minus_notMem_stripZeros (n : Nat) : '-' ∉ stripZeros (Nat.toDigits 10 n) := by
  intro h
  rw [stripZeros, List.mem_reverse] at h
  have hmem := List.mem_reverse.1 ((List.dropWhile_sublist _).subset h)
  exact absurd (Nat.isDigit_of_mem_toDigits (by decide) (by decide) hmem) (by decide)

theorem minus_notMem_positional {digits : List Char} (h : '-' ∉ digits) (wholePoint : Bool)
    (lead : Int) : '-' ∉ positional wholePoint digits lead := by
  unfold positional
  split
  case isTrue => simp [h]
  case isFalse =>
    simp only
    split
    case isTrue => cases wholePoint <;> simp [h]
    case isFalse =>
      rw [List.mem_append, List.mem_cons]
      rintro (hmem | hmem | hmem)
      · exact h (List.mem_of_mem_take hmem)
      · exact absurd hmem (by decide)
      · exact h (List.mem_of_mem_drop hmem)

theorem head?_scientific {digits : List Char} (h : '-' ∉ digits) (lead : Int) :
    (scientific digits lead).head? ≠ some '-' := by
  unfold scientific
  match digits with
  | [] => simp
  | [d] =>
    rintro heq
    exact h (Option.some.inj heq ▸ List.mem_cons_self)
  | d :: d' :: rest =>
    rintro heq
    exact h (Option.some.inj heq ▸ List.mem_cons_self)

theorem head?_layOut (style : Style) (coefficient : Nat) (exponent : Int) :
    (layOut style coefficient exponent).head? ≠ some '-' := by
  unfold layOut
  simp only
  split
  · intro h
    exact minus_notMem_positional (minus_notMem_stripZeros _) _ _ (List.mem_of_mem_head? h)
  · exact head?_scientific (minus_notMem_stripZeros _) _

/-- A magnitude never begins with a minus sign. -/
theorem head?_magnitude (style : Style) (units : Nat) :
    (magnitude style units).head? ≠ some '-' := head?_layOut style _ _

end Decimal

/-- A finite number is negative if it has a sign and is not zero. -/
theorem Binary64.isNonneg_finite (negative : Bool) (units : Nat) :
    (finite negative units).isNonneg = !(negative && !(units == 0)) := by
  have hcompare : (finite negative units).isNonneg =
      (compare (signedUnits negative units) 0 != .lt) := rfl
  rw [hcompare]
  by_cases hunits : units = 0
  · subst hunits
    cases negative <;> decide
  · have hbeq : (units == 0) = false := beq_eq_false_iff_ne.2 hunits
    rw [hbeq]
    cases negative with
    | true =>
      have hlt : compare (-(units : Int)) 0 = .lt := Int.compare_eq_lt.2 (by omega)
      simp [signedUnits, hlt]
    | false =>
      have hgt : compare (units : Int) 0 = .gt := Int.compare_eq_gt.2 (by omega)
      simp [signedUnits, hgt]

namespace Number

/-- A number is written with a minus sign if and only if it is negative. -/
theorem isNonneg_iff {x : Binary64} (h : x ≠ .nan) :
    x.isNonneg ↔ (write x).toList.head? ≠ some '-' := by
  cases x with
  | nan => exact absurd rfl h
  | infinity negative => cases negative <;> decide
  | finite negative units =>
    rw [Binary64.isNonneg_finite, write, Decimal.write]
    generalize htext : (if units == 0 then _ else Decimal.magnitude style units) = text
    have hhead : text.head? ≠ some '-' := by
      rw [← htext]
      split
      · decide
      · exact Decimal.head?_magnitude style units
    cases negative <;> cases hunits : units == 0 <;> simp [style, hhead]

end Number

end Turtle

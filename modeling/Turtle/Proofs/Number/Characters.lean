import Turtle.Number.Reader

/-!
# The characters of a number in a program

A number is written with letters, digits, a point and signs, and one that is finite with no letter
but that of the exponent.
-/

namespace Turtle

/-- The characters that numbers are written with. -/
def Number.isCharacter (c : Char) : Bool := c.isAlphanum || ['.', '+', '-'].contains c

namespace Decimal

/-- The characters that finite numbers are written with. -/
def isCharacter (c : Char) : Bool := c.isDigit || ['.', 'e', '+', '-'].contains c

theorem isCharacter_number {c : Char} (h : isCharacter c) : Number.isCharacter c := by
  simp only [isCharacter, Bool.or_eq_true, List.contains_iff_mem, List.mem_cons,
    List.not_mem_nil, or_false] at h
  rcases h with h | rfl | rfl | rfl | rfl
  · rw [Number.isCharacter, Char.isAlphanum, h, Bool.or_true, Bool.true_or]
  all_goals decide

variable {digits : List Char}

theorem isCharacter_toDigits (n : Nat) : ∀ c ∈ Nat.toDigits 10 n, isCharacter c := by
  intro c hc
  have hdigit := Nat.isDigit_of_mem_toDigits (by decide) (by decide) hc
  rw [isCharacter, hdigit, Bool.true_or]

theorem isCharacter_stripZeros (h : ∀ c ∈ digits, isCharacter c) :
    ∀ c ∈ stripZeros digits, isCharacter c := by
  intro c hc
  rw [stripZeros, List.mem_reverse] at hc
  exact h c (List.mem_reverse.1 ((List.dropWhile_sublist _).subset hc))

theorem isCharacter_positional (h : ∀ c ∈ digits, isCharacter c) (wholePoint : Bool) (lead : Int) :
    ∀ c ∈ positional wholePoint digits lead, isCharacter c := by
  have hzero : isCharacter '0' := by decide
  have hpoint : isCharacter '.' := by decide
  have hzeros (n : Nat) : ∀ c ∈ List.replicate n '0', isCharacter c := fun c hc ↦
    (List.mem_replicate.1 hc).2 ▸ hzero
  unfold positional
  split
  · exact List.forall_mem_append.2 ⟨List.forall_mem_cons.2
      ⟨hzero, List.forall_mem_cons.2 ⟨hpoint, hzeros _⟩⟩, h⟩
  · simp only
    split
    · refine List.forall_mem_append.2 ⟨List.forall_mem_append.2 ⟨h, hzeros _⟩, ?_⟩
      cases wholePoint <;> simp [hzero, hpoint]
    · refine List.forall_mem_append.2 ⟨fun c hc ↦ h c (List.mem_of_mem_take hc), ?_⟩
      exact List.forall_mem_cons.2 ⟨hpoint, fun c hc ↦ h c (List.mem_of_mem_drop hc)⟩

theorem isCharacter_scientific (h : ∀ c ∈ digits, isCharacter c) (lead : Int) :
    ∀ c ∈ scientific digits lead, isCharacter c := by
  have hexponent : ∀ c ∈ 'e' :: (if lead < 0 then '-' else '+') :: Nat.toDigits 10 lead.natAbs,
      isCharacter c := by
    refine List.forall_mem_cons.2 ⟨by decide, List.forall_mem_cons.2 ⟨?_, isCharacter_toDigits _⟩⟩
    split <;> decide
  unfold scientific
  match digits with
  | [] => exact hexponent
  | [d] => exact List.forall_mem_append.2 ⟨h, hexponent⟩
  | d :: d' :: rest =>
    obtain ⟨hd, hrest⟩ := List.forall_mem_cons.1 h
    exact List.forall_mem_append.2 ⟨List.forall_mem_cons.2
      ⟨hd, List.forall_mem_cons.2 ⟨by decide, hrest⟩⟩, hexponent⟩

theorem isCharacter_magnitude (style : Style) (units : Nat) :
    ∀ c ∈ magnitude style units, isCharacter c := by
  unfold magnitude layOut
  simp only
  split
  · exact isCharacter_positional (isCharacter_stripZeros (isCharacter_toDigits _)) _ _
  · exact isCharacter_scientific (isCharacter_stripZeros (isCharacter_toDigits _)) _

end Decimal

namespace Number

theorem isCharacter_write_finite (negative : Bool) (units : Nat) :
    ∀ c ∈ (write (.finite negative units)).toList, Decimal.isCharacter c := by
  have htext : ∀ c ∈ (if units == 0 then ['0'] else Decimal.magnitude style units),
      Decimal.isCharacter c := by
    split
    · exact List.all_eq_true.1 (by decide)
    · exact Decimal.isCharacter_magnitude _ _
  rw [write, Decimal.write, String.toList_ofList]
  split
  · exact List.forall_mem_cons.2 ⟨by decide, htext⟩
  · exact htext

theorem isCharacter_write (x : Binary64) : ∀ c ∈ (write x).toList, isCharacter c := by
  cases x with
  | nan => exact List.all_eq_true.1 (by decide)
  | infinity negative => cases negative <;> exact List.all_eq_true.1 (by decide)
  | finite negative units =>
    exact fun c hc ↦ Decimal.isCharacter_number (isCharacter_write_finite negative units c hc)

/-- No number but `nan` is written as `NaN`. -/
theorem write_eq_nan_iff {x : Binary64} : write x = "NaN" ↔ x = .nan := by
  constructor
  · intro h
    cases x with
    | nan => rfl
    | infinity negative => cases negative <;> exact absurd h (by decide)
    | finite negative units =>
      have hN := isCharacter_write_finite negative units 'N' (h ▸ by decide)
      exact absurd hN (by decide)
  · rintro rfl
    rfl

theorem isCharacter_toString_nat (n : Nat) : ∀ c ∈ (toString n).toList, isCharacter c := by
  rw [show toString n = String.ofList (Nat.toDigits 10 n) from rfl, String.toList_ofList]
  exact fun c hc ↦ Decimal.isCharacter_number (Decimal.isCharacter_toDigits n c hc)

theorem isCharacter_toString_int (n : Int) : ∀ c ∈ (toString n).toList, isCharacter c := by
  cases n with
  | ofNat n => exact isCharacter_toString_nat n
  | negSucc n =>
    rw [show toString (Int.negSucc n) = "-" ++ toString (n + 1) from rfl, String.toList_append]
    exact List.forall_mem_append.2
      ⟨List.all_eq_true.1 (by decide), isCharacter_toString_nat (n + 1)⟩

end Number

end Turtle

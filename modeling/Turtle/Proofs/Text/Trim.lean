import Mathlib.Data.List.TakeWhile
import Turtle.Proofs.Text.Ascii
import Turtle.Text.Blank
import Turtle.Text.Digit

/-!
# Trimming

A text is what is left of it when it is trimmed, with blanks around.  As no digit is blank, none is
trimmed away.
-/

namespace Turtle.Text

variable {s t : List Char}

/-! ## Runs -/

section

variable {P : Char → Bool} (hs : ∀ c ∈ s, P c) (ht : ∀ c ∈ t.head?, P c = false)

include hs ht

/-- A run of characters ends where the first other one stands. -/
theorem takeWhile_run : (s ++ t).takeWhile P = s := by
  rw [List.takeWhile_append_of_pos hs]
  cases t with
  | nil => exact List.append_nil s
  | cons c t => rw [List.takeWhile_cons_of_neg (by simp [ht c rfl]), List.append_nil]

theorem dropWhile_run : (s ++ t).dropWhile P = t := by
  rw [List.dropWhile_append_of_pos hs]
  cases t with
  | nil => rfl
  | cons c t => rw [List.dropWhile_cons_of_neg (by simp [ht c rfl])]

end

/-! ## Blanks around a text -/

theorem exists_trim (s : List Char) : ∃ before after, (∀ c ∈ before, isBlank c) ∧
    (∀ c ∈ after, isBlank c) ∧ s = before ++ trim s ++ after := by
  refine ⟨s.takeWhile isBlank, ((s.dropWhile isBlank).reverse.takeWhile isBlank).reverse,
    ?_, ?_, ?_⟩
  · exact fun c hc ↦ List.mem_takeWhile_imp hc
  · exact fun c hc ↦ List.mem_takeWhile_imp (List.mem_reverse.1 hc)
  · rw [trim, List.append_assoc, ← List.reverse_append, List.takeWhile_append_dropWhile,
      List.reverse_reverse, List.takeWhile_append_dropWhile]

/-- Blanks around a text that neither begins nor ends with one are what is trimmed away. -/
theorem trim_append {before after : List Char} (hbefore : ∀ c ∈ before, isBlank c)
    (hafter : ∀ c ∈ after, isBlank c) (hhead : ∃ c ∈ t.head?, isBlank c = false)
    (hlast : ∃ c ∈ t.getLast?, isBlank c = false) : trim (before ++ t ++ after) = t := by
  obtain ⟨c, hc, hblank⟩ := hhead
  obtain ⟨d, hd, hblank'⟩ := hlast
  have hstart : ∀ e ∈ (t ++ after).head?, isBlank e = false := by
    intro e he
    rw [List.head?_append, Option.mem_def.1 hc] at he
    exact Option.some.inj he ▸ hblank
  have hend : ∀ e ∈ t.reverse.head?, isBlank e = false := by
    intro e he
    rw [List.head?_reverse] at he
    exact Option.mem_unique he hd ▸ hblank'
  have hafter' : ∀ c ∈ after.reverse, isBlank c := fun c hc ↦ hafter c (List.mem_reverse.1 hc)
  rw [trim, List.append_assoc, dropWhile_run hbefore hstart, List.reverse_append,
    dropWhile_run hafter' hend, List.reverse_reverse]

/-! ## Digits and blanks -/

/-- The digits of a script are the ten characters from its zero on. -/
theorem exists_zero_of_isDecimal {c : Char} (h : isDecimal c) :
    ∃ z ∈ zeros, ∃ n < 10, c = Char.ofNat (z + n) := by
  obtain ⟨z, hz, hc⟩ := List.any_eq_true.1 h
  simp only [Bool.and_eq_true, decide_eq_true_eq] at hc
  refine ⟨z, hz, c.toNat - z, by omega, ?_⟩
  rw [Nat.add_sub_cancel' hc.1, Char.ofNat_toNat]

theorem isBlank_of_isDecimal {c : Char} (h : isDecimal c) : isBlank c = false := by
  obtain ⟨z, hz, n, hn, rfl⟩ := exists_zero_of_isDecimal h
  have htable : ∀ z ∈ zeros, ∀ n < 10, isBlank (Char.ofNat (z + n)) = false := by
    decide +kernel
  exact htable z hz n hn

/-- The decimal digits of ASCII are its digits. -/
theorem isDigit_of_isDecimal {c : Char} (h : isDecimal c) (hc : c.toNat < 128) : c.isDigit := by
  have htable : ∀ n < 128, isDecimal (Char.ofNat n) → (Char.ofNat n).isDigit := by
    decide +kernel
  have hdigit : isDecimal c → c.isDigit := ascii_induction htable hc
  exact hdigit h

end Turtle.Text

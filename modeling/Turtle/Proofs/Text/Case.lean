import Turtle.Proofs.Text.Ascii
import Turtle.Text.Case

/-!
# Marks and lower case

Brackets and semicolons are the lower case of no other character, so a text in lower case has them
only where the text has them.
-/

namespace Turtle.Text

variable {c : Char} {s : List Char}

/-- The code points of brackets and of the semicolon. -/
def markCodes : List Nat := [40, 41, 59, 91, 93]

theorem lowerIn_cases (c : Char) (runs : List LowerRun) : lowerIn c runs = c ∨
    ∃ run ∈ runs, run.first ≤ c.toNat ∧ c.toNat ≤ run.last ∧
      lowerIn c runs = Char.ofNat (c.toNat + run.offset).toNat := by
  induction runs with
  | nil => exact .inl rfl
  | cons run runs ih =>
    rw [lowerIn]
    split
    · exact .inl rfl
    · rename_i hfirst
      split
      · rename_i hlast
        exact .inr ⟨run, List.mem_cons_self, by omega, hlast.1, rfl⟩
      · refine ih.imp_right ?_
        rintro ⟨run', hmem, hrun⟩
        exact ⟨run', List.mem_cons_of_mem run hmem, hrun⟩

/-- No run of characters is mapped to a mark. -/
theorem lowerRuns_apart : ∀ run ∈ lowerRuns, ∀ n ∈ markCodes,
    run.last + run.offset < n ∨ n < run.first + run.offset := by
  decide +kernel

theorem toNat_ofNat_cases (n : Nat) : (Char.ofNat n).toNat = n ∨ (Char.ofNat n).toNat = 0 := by
  by_cases h : n.isValidChar
  · exact .inl (by rw [Char.ofNat, dif_pos h]; rfl)
  · exact .inr (by rw [Char.ofNat, dif_neg h]; rfl)

/-- No character but a mark has that mark as its lower case. -/
theorem lowerChar_of_mark (h : (lowerChar c).toNat ∈ markCodes) : lowerChar c = c := by
  rw [lowerChar] at h ⊢
  split at h
  case isTrue hascii =>
    have hlower : ∀ n < 128, (Char.ofNat n).toLower.toNat ∈ markCodes →
        (Char.ofNat n).toLower = Char.ofNat n := by
      decide
    have hc : c.toLower.toNat ∈ markCodes → c.toLower = c := ascii_induction hlower hascii
    rw [if_pos hascii, hc h]
  case isFalse hascii =>
    rw [if_neg hascii]
    rcases lowerIn_cases c lowerRuns with heq | ⟨run, hrun, hfirst, hlast, heq⟩
    · exact heq
    · rw [heq] at h
      rcases toNat_ofNat_cases (c.toNat + run.offset).toNat with hnat | hnat <;> rw [hnat] at h
      · have hapart := lowerRuns_apart run hrun _ h
        have hpos : (c.toNat + run.offset).toNat ≠ 0 := by
          intro hzero
          rw [hzero] at h
          exact absurd h (by decide)
        omega
      · exact absurd h (by decide)

/-- A mark in a text in lower case is one of the text. -/
theorem mem_of_mem_lowerFrom {before : List Char} {d : Char} (hd : d.toNat ∈ markCodes)
    (h : d ∈ lowerFrom before s) : d ∈ s := by
  have hother {e : Char} (he : e.toNat ∉ markCodes) : d ≠ e := fun heq ↦ he (heq ▸ hd)
  induction s generalizing before with
  | nil => exact h
  | cons c s ih =>
    rw [lowerFrom] at h
    split at h
    · rcases List.mem_cons.1 h with h | h
      · exact absurd h (hother (by decide))
      · rcases List.mem_cons.1 h with h | h
        · exact absurd h (hother (by decide))
        · exact List.mem_cons_of_mem c (ih h)
    · split at h
      · rcases List.mem_cons.1 h with h | h
        · exact absurd h (hother (by split <;> decide))
        · exact List.mem_cons_of_mem c (ih h)
      · rcases List.mem_cons.1 h with rfl | h
        · rw [lowerChar_of_mark hd]
          exact List.mem_cons_self
        · exact List.mem_cons_of_mem c (ih h)

end Turtle.Text

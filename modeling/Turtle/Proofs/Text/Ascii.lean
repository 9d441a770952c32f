/-!
# Characters of ASCII

There are so few characters of ASCII that a fact about all of them can be read off their table.
-/

namespace Turtle.Text

/-- The characters of a text are those of ASCII. -/
def IsAscii (s : List Char) : Prop := ∀ c ∈ s, c.toNat < 128

instance (s : List Char) : Decidable (IsAscii s) :=
  List.decidableBAll (fun c : Char ↦ c.toNat < 128) s

/-- What is true of every entry of the table is true of every character of ASCII. -/
@[elab_as_elim] theorem ascii_induction {P : Char → Prop}
    (htable : ∀ n < 128, P (Char.ofNat n)) {c : Char} (hc : c.toNat < 128) : P c := by
  have hentry := htable c.toNat hc
  rwa [Char.ofNat_toNat] at hentry

theorem toNat_lt_of_le {c d : Char} (hle : c ≤ d) (hd : d.toNat < 128) : c.toNat < 128 :=
  Nat.lt_of_le_of_lt (show c.toNat ≤ d.toNat from hle) hd

theorem toNat_lt_of_isDigit {c : Char} (h : c.isDigit) : c.toNat < 128 := by
  simp only [Char.isDigit, Bool.and_eq_true, decide_eq_true_eq] at h
  exact toNat_lt_of_le h.2 (by decide)

end Turtle.Text

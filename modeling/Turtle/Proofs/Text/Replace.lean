import Mathlib.Data.List.Infix
import Turtle.Text.Replace

/-!
# What replacing leaves

Replacing a phrase leaves what cannot belong to an occurrence of it.  From a text in which the
phrase occurs, what was put in its place can be read back.
-/

namespace Turtle.Text

variable {p : Char} {ps new new' s : List Char}

theorem replace_append (h : p ∉ s) (ps new t : List Char) :
    replace p ps new (s ++ t) = s ++ replace p ps new t := by
  induction s with
  | nil => rfl
  | cons c s ih =>
    have hc : c ≠ p := fun heq ↦ h (heq ▸ List.mem_cons_self)
    rw [List.cons_append, replace, if_neg fun hand ↦ hc hand.1,
      ih fun hmem ↦ h (List.mem_cons_of_mem c hmem), List.cons_append]

theorem replace_phrase (p : Char) (ps new t : List Char) :
    replace p ps new (p :: ps ++ t) = new ++ replace p ps new t := by
  rw [List.cons_append, replace, if_pos ⟨rfl, by simp⟩, List.drop_left]

/-- A character behind the text stays if it is none of the phrase. -/
theorem replace_concat {d : Char} (hd : d ∉ p :: ps) (new s : List Char) :
    replace p ps new (s ++ [d]) = replace p ps new s ++ [d] := by
  induction s using replace.induct p ps with
  | case1 =>
    have hne : d ≠ p := fun heq ↦ hd (heq ▸ List.mem_cons_self)
    simp [replace, hne]
  | case2 c s hoccurs ih =>
    obtain ⟨rfl, hbegins⟩ := hoccurs
    have hbegins := List.isPrefixOf_iff_prefix.1 hbegins
    have hlong : ps.isPrefixOf (s ++ [d]) :=
      List.isPrefixOf_iff_prefix.2 (hbegins.trans (List.prefix_append s [d]))
    rw [List.cons_append, replace, if_pos ⟨rfl, hlong⟩, replace,
      if_pos ⟨rfl, List.isPrefixOf_iff_prefix.2 hbegins⟩,
      List.drop_append_of_le_length hbegins.length_le, ih, List.append_assoc]
  | case3 c s hoccurs ih =>
    have hlong : ¬ (c = p ∧ ps.isPrefixOf (s ++ [d])) := by
      rintro ⟨hc, hbegins⟩
      rcases List.prefix_concat_iff.1 (List.isPrefixOf_iff_prefix.1 hbegins) with heq | hbegins
      · exact hd (by simp [heq])
      · exact hoccurs ⟨hc, List.isPrefixOf_iff_prefix.2 hbegins⟩
    rw [List.cons_append, replace, if_neg hlong, replace, if_neg hoccurs, ih, List.cons_append]

theorem notMem_replace {d : Char} (hs : d ∉ s) (hnew : d ∉ new) (p : Char) (ps : List Char) :
    d ∉ replace p ps new s := by
  induction s using replace.induct p ps with
  | case1 =>
    rw [replace]
    exact hs
  | case2 c s hoccurs ih =>
    rw [replace, if_pos hoccurs, List.mem_append, not_or]
    exact ⟨hnew, ih fun hmem ↦ hs (List.mem_cons_of_mem c (List.mem_of_mem_drop hmem))⟩
  | case3 c s hoccurs ih =>
    rw [List.mem_cons, not_or] at hs
    rw [replace, if_neg hoccurs, List.mem_cons, not_or]
    exact ⟨hs.1, ih hs.2⟩

/-! ## Reading back -/

theorem length_replace_le (h : new.length ≤ new'.length) (p : Char) (ps s : List Char) :
    (replace p ps new s).length ≤ (replace p ps new' s).length := by
  induction s using replace.induct p ps with
  | case1 => simp [replace]
  | case2 c s hoccurs ih =>
    rw [replace, if_pos hoccurs, replace, if_pos hoccurs, List.length_append, List.length_append]
    omega
  | case3 c s hoccurs ih =>
    rw [replace, if_neg hoccurs, replace, if_neg hoccurs, List.length_cons, List.length_cons]
    omega

/-- A longer text in the place of the phrase leaves a longer text, so the first occurrence tells
what was put there. -/
theorem replace_injective_of_le (hlength : new.length ≤ new'.length) (hs : p :: ps <:+: s)
    (h : replace p ps new s = replace p ps new' s) : new = new' := by
  induction s using replace.induct p ps with
  | case1 => cases List.infix_nil.1 hs
  | case2 c s hoccurs ih =>
    rw [replace, if_pos hoccurs, replace, if_pos hoccurs] at h
    have hrest := length_replace_le hlength p ps (s.drop ps.length)
    have htotal := congrArg List.length h
    rw [List.length_append, List.length_append] at htotal
    exact (List.append_inj h (by omega)).1
  | case3 c s hoccurs ih =>
    rw [replace, if_neg hoccurs, replace, if_neg hoccurs] at h
    rcases List.infix_cons_iff.1 hs with hbegins | hinside
    · obtain ⟨rfl, htail⟩ := List.cons_prefix_cons.1 hbegins
      exact absurd ⟨rfl, List.isPrefixOf_iff_prefix.2 htail⟩ hoccurs
    · exact ih hinside (List.cons.inj h).2

theorem replace_injective (hs : p :: ps <:+: s)
    (h : replace p ps new s = replace p ps new' s) : new = new' := by
  rcases Nat.le_total new.length new'.length with hlength | hlength
  · exact replace_injective_of_le hlength hs h
  · exact (replace_injective_of_le hlength hs h.symm).symm

end Turtle.Text

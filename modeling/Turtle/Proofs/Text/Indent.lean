import Turtle.Proofs.Text.Lines

/-!
# Prefixes of lines

A text in front of every line can be taken away again, and a text in front of that one makes one
prefix with it.
-/

namespace Turtle

namespace Text

variable {p q s t : List Char}

theorem prefixRest_eq_nil_iff : prefixRest p s = [] ↔ s = [] := by
  cases s with
  | nil => rfl
  | cons c s =>
    rw [prefixRest]
    split <;> simp

/-! ## Taking a prefix away -/

/-- Take `p` away at the start of every line but an empty one that ends the text.  `due` is what has
still to be taken away from the line that is being read. -/
def dropPrefixes? (p : List Char) : (due s : List Char) → Option (List Char)
  | _ :: _, [] => none
  | d :: due, c :: s => if c = d then dropPrefixes? p due s else none
  | [], [] => some []
  | [], c :: s => (dropPrefixes? p (if c = '\n' ∧ s ≠ [] then p else []) s).map (c :: ·)

theorem dropPrefixes?_append (p due s : List Char) :
    dropPrefixes? p due (due ++ s) = dropPrefixes? p [] s := by
  induction due with
  | nil => rfl
  | cons d due ih => rw [List.cons_append, dropPrefixes?, if_pos rfl, ih]

theorem dropPrefixes?_prefixRest (p s : List Char) :
    dropPrefixes? p [] (prefixRest p s) = some s := by
  induction s with
  | nil => rfl
  | cons c s ih =>
    rw [prefixRest]
    split
    case isTrue h =>
      have hne : p ++ prefixRest p s ≠ [] :=
        List.append_ne_nil_of_right_ne_nil p (mt prefixRest_eq_nil_iff.1 h.2)
      rw [List.cons_append, dropPrefixes?, if_pos ⟨rfl, hne⟩, dropPrefixes?_append, ih, h.1]
      rfl
    case isFalse h =>
      have hlast : ¬(c = '\n' ∧ prefixRest p s ≠ []) := by
        rwa [ne_eq, prefixRest_eq_nil_iff]
      rw [dropPrefixes?, if_neg hlast, ih]
      rfl

/-! ## A prefix in front of a prefix -/

theorem prefixRest_prefixRest (hp : '\n' ∉ p) (q s : List Char) :
    prefixRest q (prefixRest p s) = prefixRest (q ++ p) s := by
  induction s with
  | nil => rfl
  | cons c s ih =>
    rw [prefixRest_cons p, prefixRest_cons (q ++ p)]
    split
    case isTrue h =>
      have hne : p ++ prefixRest p s ≠ [] :=
        List.append_ne_nil_of_right_ne_nil p (mt prefixRest_eq_nil_iff.1 h.2)
      rw [List.cons_append, prefixRest_cons, if_pos ⟨rfl, hne⟩, prefixRest_line hp, ih]
      simp only [List.cons_append, List.append_assoc]
    case isFalse h =>
      have hlast : ¬(c = '\n' ∧ prefixRest p s ≠ []) := by
        rwa [ne_eq, prefixRest_eq_nil_iff]
      rw [prefixRest_cons, if_neg hlast, ih]

theorem prefixLines_prefixLines (hp : '\n' ∉ p) (q s : List Char) :
    prefixLines q (prefixLines p s) = prefixLines (q ++ p) s := by
  rw [prefixLines, prefixLines, prefixRest_line hp, prefixRest_prefixRest hp, prefixLines,
    List.append_assoc]

theorem prefixLines_nil (s : List Char) : prefixLines [] s = s := by
  rw [prefixLines, List.nil_append]
  induction s with
  | nil => rfl
  | cons c s ih =>
    rw [prefixRest, ih]
    split
    case isTrue h => rw [h.1]; rfl
    case isFalse => rfl

/-! ## What stands around some lines -/

/-- Whether a text behind this one begins a line. -/
def EndsLine (s : List Char) : Prop := s = [] ∨ s.getLast? = some '\n'

theorem getLast?_prefixLines (hs : s.getLast? = some '\n') (p : List Char) :
    (prefixLines p s).getLast? = some '\n' := by
  obtain ⟨s, rfl⟩ := List.getLast?_eq_some_iff.1 hs
  obtain ⟨s', hs'⟩ := prefixRest_append p s
  rw [prefixLines, hs' ['\n'] (List.cons_ne_nil _ _), ← List.append_assoc]
  simp [prefixRest]

theorem EndsLine.append (hs : EndsLine s) (ht : EndsLine t) : EndsLine (s ++ t) := by
  rcases ht with rfl | ht
  · rwa [List.append_nil]
  · right
    rw [List.getLast?_append, ht]
    rfl

/-- What stands behind a text bears on how it is prefixed only behind it. -/
theorem exists_prefixLines_append (p s t : List Char) :
    ∃ t', prefixLines p (s ++ t) = prefixLines p s ++ t' := by
  have hrest : ∃ t', prefixRest p (s ++ t) = prefixRest p s ++ t' := by
    induction s with
    | nil => exact ⟨prefixRest p t, rfl⟩
    | cons c s ih =>
      obtain ⟨t', ht'⟩ := ih
      rw [List.cons_append, prefixRest_cons, prefixRest_cons, ht']
      by_cases hs : s = []
      · subst hs
        rw [if_neg (by simp : ¬(c = '\n' ∧ ([] : List Char) ≠ []))]
        split
        case isTrue h => exact ⟨p ++ t', by rw [h.1]; simp [prefixRest]⟩
        case isFalse => exact ⟨t', rfl⟩
      · refine ⟨t', ?_⟩
        by_cases hc : c = '\n'
        · rw [if_pos ⟨hc, by simp [hs]⟩, if_pos ⟨hc, hs⟩, List.append_assoc]
        · rw [if_neg fun h ↦ hc h.1, if_neg fun h ↦ hc h.1, List.cons_append]
  obtain ⟨t', ht'⟩ := hrest
  exact ⟨t', by rw [prefixLines, ht', ← List.append_assoc, prefixLines]⟩

/-- Lines in the midst of a text are prefixed by themselves. -/
theorem EndsLine.exists_prefixLines (hs : EndsLine s) (ht : t ≠ []) (p u : List Char) :
    ∃ s' u', EndsLine s' ∧ prefixLines p (s ++ t ++ u) = s' ++ prefixLines p t ++ u' := by
  obtain ⟨u', hu'⟩ := exists_prefixLines_append p (s ++ t) u
  rw [hu']
  rcases hs with rfl | hs
  · exact ⟨[], u', .inl rfl, rfl⟩
  · refine ⟨prefixLines p s, u', .inr (getLast?_prefixLines hs p), ?_⟩
    rw [prefixLines_append hs ht]

end Text

end Turtle

import Turtle.Text.Lines

/-!
# Lines of a text, one by one

A line that ends in a newline is the first one that a text is split into, and texts that end in
newlines are as different as their lines.  What stands before a text does not bear on how the text
is prefixed, but for its last newline.
-/

namespace Turtle.Text

/-! ## Splitting -/

theorem splitLines_append {s : List Char} (h : '\n' ∉ s) (t : List Char) :
    ∃ line rest, splitLines t = line :: rest ∧ splitLines (s ++ t) = (s ++ line) :: rest := by
  induction s with
  | nil =>
    obtain ⟨line, rest, heq⟩ := List.exists_cons_of_ne_nil (splitLines_ne_nil t)
    exact ⟨line, rest, heq, heq⟩
  | cons c s ih =>
    have hc : c ≠ '\n' := fun heq ↦ h (heq ▸ List.mem_cons_self)
    obtain ⟨line, rest, heq, happend⟩ := ih fun hmem ↦ h (List.mem_cons_of_mem c hmem)
    refine ⟨line, rest, heq, ?_⟩
    simp [splitLines, hc, happend]

theorem splitLines_append_newline {s : List Char} (h : '\n' ∉ s) (t : List Char) :
    splitLines (s ++ '\n' :: t) = s :: splitLines t := by
  obtain ⟨line, rest, heq, happend⟩ := splitLines_append h ('\n' :: t)
  rw [splitLines, if_pos rfl] at heq
  obtain ⟨rfl, rfl⟩ := List.cons.inj heq
  rw [happend, List.append_nil]

/-- What stands before the first of some character. -/
theorem takeWhile_bne {c : Char} {s : List Char} (h : c ∉ s) (t : List Char) :
    (s ++ c :: t).takeWhile (· != c) = s := by
  have hpass : ∀ d ∈ s, d != c := fun d hd ↦ bne_iff_ne.2 (ne_of_mem_of_not_mem hd h)
  rw [List.takeWhile_append_of_pos hpass, List.takeWhile_cons_of_neg (by simp), List.append_nil]

theorem splitLines_of_notMem {s : List Char} (h : '\n' ∉ s) : splitLines s = [s] := by
  obtain ⟨line, rest, heq, happend⟩ := splitLines_append h []
  obtain ⟨rfl, rfl⟩ := List.cons.inj heq
  rwa [List.append_nil] at happend

/-! ## Joining -/

theorem joinLines_cons {ls : List (List Char)} (h : ls ≠ []) (l : List Char) :
    joinLines (l :: ls) = l ++ '\n' :: joinLines ls := by
  obtain ⟨l', ls, rfl⟩ := List.exists_cons_of_ne_nil h
  rfl

theorem joinLines_append {ls ls' : List (List Char)} (h : ls ≠ []) (h' : ls' ≠ []) :
    joinLines (ls ++ ls') = joinLines ls ++ '\n' :: joinLines ls' := by
  induction ls with
  | nil => exact absurd rfl h
  | cons l ls ih =>
    cases ls with
    | nil => exact joinLines_cons h' l
    | cons l₁ ls =>
      have hne := List.cons_ne_nil l₁ ls
      rw [List.cons_append, joinLines_cons (List.append_ne_nil_of_left_ne_nil hne ls'), ih hne,
        joinLines_cons hne, List.append_assoc, List.cons_append]

/-- Lines without newlines are read back from the text that has them. -/
theorem splitLines_joinLines {ls : List (List Char)} (hne : ls ≠ []) (h : ∀ l ∈ ls, '\n' ∉ l) :
    splitLines (joinLines ls) = ls := by
  induction ls with
  | nil => exact absurd rfl hne
  | cons l ls ih =>
    obtain ⟨hl, hls⟩ := List.forall_mem_cons.1 h
    cases ls with
    | nil => exact splitLines_of_notMem hl
    | cons l' ls =>
      have hne := List.cons_ne_nil l' ls
      rw [joinLines_cons hne, splitLines_append_newline hl, ih hne hls]

/-- Texts of some lines each are joined to the text of all the lines. -/
theorem joinLines_map_joinLines {lss : List (List (List Char))} (h : ∀ ls ∈ lss, ls ≠ []) :
    joinLines (lss.map joinLines) = joinLines lss.flatten := by
  induction lss with
  | nil => rfl
  | cons ls lss ih =>
    obtain ⟨hls, hlss⟩ := List.forall_mem_cons.1 h
    cases lss with
    | nil => rw [List.map_singleton, List.flatten_singleton]; rfl
    | cons ls' lss =>
      have hne : (ls' :: lss).flatten ≠ [] := by simp [(List.forall_mem_cons.1 hlss).1]
      rw [List.flatten_cons, joinLines_append hls hne, ← ih hlss, List.map_cons,
        joinLines_cons (by simp)]

/-! ## Complete lines -/

/-- The text of some lines, each ended by a newline. -/
def closeLines (ls : List (List Char)) : List Char := ls.flatMap (· ++ ['\n'])

@[simp] theorem closeLines_nil : closeLines [] = [] := rfl

@[simp] theorem closeLines_cons (l : List Char) (ls : List (List Char)) :
    closeLines (l :: ls) = l ++ '\n' :: closeLines ls := by
  simp [closeLines]

theorem closeLines_append (ls ls' : List (List Char)) :
    closeLines (ls ++ ls') = closeLines ls ++ closeLines ls' := List.flatMap_append

/-- The lines of a text are read back from it. -/
theorem splitLines_closeLines {ls : List (List Char)} (h : ∀ l ∈ ls, '\n' ∉ l) :
    splitLines (closeLines ls) = ls ++ [[]] := by
  induction ls with
  | nil => rfl
  | cons l ls ih =>
    rw [closeLines_cons, splitLines_append_newline (h l List.mem_cons_self),
      ih fun l' hl' ↦ h l' (List.mem_cons_of_mem l hl'), List.cons_append]

theorem closeLines_inj {ls ls' : List (List Char)} (h : ∀ l ∈ ls, '\n' ∉ l)
    (h' : ∀ l ∈ ls', '\n' ∉ l) : closeLines ls = closeLines ls' ↔ ls = ls' := by
  refine ⟨fun heq ↦ ?_, congrArg closeLines⟩
  have hsplit := congrArg splitLines heq
  rw [splitLines_closeLines h, splitLines_closeLines h'] at hsplit
  exact List.append_cancel_right hsplit

theorem notMem_of_mem_splitLines {s l : List Char} (h : l ∈ splitLines s) : '\n' ∉ l := by
  induction s generalizing l with
  | nil =>
    cases List.mem_singleton.1 h
    exact List.not_mem_nil
  | cons c s ih =>
    obtain ⟨first, rest, heq⟩ := List.exists_cons_of_ne_nil (splitLines_ne_nil s)
    rw [heq] at ih
    rw [splitLines] at h
    split at h
    case isTrue =>
      rw [heq] at h
      rcases List.mem_cons.1 h with rfl | h
      · exact List.not_mem_nil
      · exact ih h
    case isFalse hc =>
      simp only [heq] at h
      rcases List.mem_cons.1 h with rfl | h
      · rw [List.mem_cons, not_or]
        exact ⟨Ne.symm hc, ih List.mem_cons_self⟩
      · exact ih (List.mem_cons_of_mem _ h)

theorem closeLines_splitLines (s : List Char) : closeLines (splitLines s) = s ++ ['\n'] := by
  induction s with
  | nil => rfl
  | cons c s ih =>
    obtain ⟨first, rest, heq⟩ := List.exists_cons_of_ne_nil (splitLines_ne_nil s)
    rw [heq, closeLines_cons] at ih
    rw [splitLines]
    split
    case isTrue hc => rw [heq, closeLines_cons, closeLines_cons, ih, hc]; rfl
    case isFalse => simp only [heq, closeLines_cons, List.cons_append, ih]

/-! ## Prefixing -/

theorem prefixRest_cons (p : List Char) (c : Char) (s : List Char) :
    prefixRest p (c :: s) =
      if c = '\n' ∧ s ≠ [] then '\n' :: p ++ prefixRest p s else c :: prefixRest p s := by
  cases s <;> rfl

theorem head?_prefixRest (p s : List Char) : (prefixRest p s).head? = s.head? := by
  cases s with
  | nil => rfl
  | cons c s =>
    rw [prefixRest]
    split
    case isTrue h => rw [h.1]; rfl
    case isFalse => rfl

/-- What stands before some text is indented by itself. -/
theorem prefixRest_append (p u : List Char) :
    ∃ u', ∀ v, v ≠ [] → prefixRest p (u ++ v) = u' ++ prefixRest p v := by
  induction u with
  | nil => exact ⟨[], fun _ _ ↦ rfl⟩
  | cons c u ih =>
    obtain ⟨u', hu'⟩ := ih
    by_cases hc : c = '\n'
    · refine ⟨'\n' :: p ++ u', fun v hv ↦ ?_⟩
      rw [List.cons_append, prefixRest, if_pos ⟨hc, by simp [hv]⟩, hu' v hv, List.append_assoc]
    · refine ⟨c :: u', fun v hv ↦ ?_⟩
      rw [List.cons_append, prefixRest, if_neg fun h ↦ hc h.1, hu' v hv, List.cons_append]

theorem prefixRest_line {l : List Char} (h : '\n' ∉ l) (p s : List Char) :
    prefixRest p (l ++ s) = l ++ prefixRest p s := by
  induction l with
  | nil => rfl
  | cons c l ih =>
    have hc : c ≠ '\n' := fun heq ↦ h (heq ▸ List.mem_cons_self)
    rw [List.cons_append, prefixRest, if_neg fun hand ↦ hc hand.1,
      ih fun hmem ↦ h (List.mem_cons_of_mem c hmem), List.cons_append]

/-- Complete lines are prefixed one by one. -/
theorem prefixLines_closeLines {ls : List (List Char)} (h : ∀ l ∈ ls, '\n' ∉ l) (hls : ls ≠ [])
    (p : List Char) : prefixLines p (closeLines ls) = closeLines (ls.map (p ++ ·)) := by
  induction ls with
  | nil => exact absurd rfl hls
  | cons l ls ih =>
    rw [prefixLines, closeLines_cons, prefixRest_line (h l List.mem_cons_self), prefixRest,
      List.map_cons, closeLines_cons, List.append_assoc]
    cases ls with
    | nil => rfl
    | cons l' ls =>
      have hrest := ih (fun l hl ↦ h l (List.mem_cons_of_mem _ hl)) (List.cons_ne_nil l' ls)
      rw [← hrest, prefixLines, if_pos ⟨rfl, by simp⟩, List.cons_append]

/-- By induction on the text in front: its last newline has something behind it, so the prefix
follows it there. -/
theorem prefixRest_append_newline (p s : List Char) {t : List Char} (h : t ≠ []) :
    prefixRest p (s ++ '\n' :: t) = prefixRest p (s ++ ['\n']) ++ (p ++ prefixRest p t) := by
  induction s with
  | nil => simp [prefixRest, h]
  | cons c s ih =>
    have hne (u : List Char) : s ++ '\n' :: u ≠ [] :=
      List.append_ne_nil_of_right_ne_nil s (List.cons_ne_nil _ _)
    rw [List.cons_append, List.cons_append, prefixRest_cons, prefixRest_cons, ih]
    by_cases hc : c = '\n'
    · rw [if_pos ⟨hc, hne t⟩, if_pos ⟨hc, hne []⟩]
      simp only [List.cons_append, List.append_assoc]
    · rw [if_neg fun hand ↦ hc hand.1, if_neg fun hand ↦ hc hand.1, List.cons_append]

/-- What stands behind a newline is prefixed by itself. -/
theorem prefixLines_append {s t : List Char} (hs : s.getLast? = some '\n') (ht : t ≠ [])
    (p : List Char) : prefixLines p (s ++ t) = prefixLines p s ++ prefixLines p t := by
  obtain ⟨s, rfl⟩ := List.getLast?_eq_some_iff.1 hs
  have happend : s ++ ['\n'] ++ t = s ++ '\n' :: t := by
    rw [List.append_assoc, List.singleton_append]
  rw [prefixLines, happend, prefixRest_append_newline p s ht, prefixLines, prefixLines,
    List.append_assoc]

end Turtle.Text

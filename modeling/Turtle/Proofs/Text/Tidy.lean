import Mathlib.Data.List.DropRight
import Turtle.Proofs.Text.Normal

/-!
# Tidying complete lines

A program whose lines all begin with a character that is not blank has nothing to lose at its front
or at its end.  All that tidying does to it is to drop the gap at the end of every line, whatever
that gap belongs to.
-/

namespace Turtle.Text

/-- A line without the gap at its end. -/
def trimGap (l : List Char) : List Char := l.rdropWhile isGap

theorem trimGap_concat (l : List Char) (c : Char) :
    trimGap (l ++ [c]) = if isGap c then trimGap l else l ++ [c] := List.rdropWhile_concat ..

theorem trimGap_eq_self_iff {l : List Char} : trimGap l = l ↔ ∀ c ∈ l.getLast?, ¬ isGap c := by
  induction l using List.reverseRecOn with
  | nil => simp [trimGap]
  | append_singleton l c _ =>
    rw [trimGap_concat]
    by_cases hc : isGap c
    · have hlength : (trimGap l).length ≤ l.length := (List.rdropWhile_prefix isGap l).length_le
      have hne : trimGap l ≠ l ++ [c] := by
        intro h
        have := congrArg List.length h
        simp at this
        omega
      simp [hc, hne]
    · simp [hc]

/-- What is in front of a character that is no gap stays. -/
theorem trimGap_append {l : List Char} (h : ∀ c ∈ l.getLast?, ¬ isGap c) (l' : List Char) :
    trimGap (l ++ l') = l ++ trimGap l' := by
  induction l' using List.reverseRecOn with
  | nil => rw [List.append_nil, trimGap_eq_self_iff.2 h, trimGap, List.rdropWhile_nil, List.append_nil]
  | append_singleton l' c ih =>
    rw [← List.append_assoc, trimGap_concat, trimGap_concat, ih]
    split <;> simp

theorem newline_notMem_trimGap {l : List Char} (h : '\n' ∉ l) : '\n' ∉ trimGap l :=
  fun hmem ↦ h ((List.rdropWhile_prefix isGap l).subset hmem)

/-- A gap is dropped up to the character before it. -/
theorem trimGap_cons (c : Char) (l : List Char) :
    trimGap (c :: l) = if isGap c ∧ trimGap l = [] then [] else c :: trimGap l := by
  by_cases hc : isGap c
  · induction l using List.reverseRecOn with
    | nil => simp [trimGap, hc]
    | append_singleton l d ih =>
      rw [← List.cons_append, trimGap_concat, trimGap_concat, ih]
      split <;> simp
  · rw [if_neg (hc ·.1)]
    exact trimGap_append (l := [c]) (by simpa using hc) l

/-- The gap at the end of a line is dropped. -/
theorem dropLineEnds_line {l : List Char} (h : '\n' ∉ l) (s : List Char) :
    dropLineEnds (l ++ '\n' :: s) = trimGap l ++ '\n' :: dropLineEnds s := by
  induction l with
  | nil =>
    have hgap : isGap '\n' = false := by decide
    simp [dropLineEnds, trimGap, hgap]
  | cons c l ih =>
    have hl : '\n' ∉ l := fun hmem ↦ h (List.mem_cons_of_mem c hmem)
    have hhead : (trimGap l ++ '\n' :: dropLineEnds s).head? = some '\n' ↔ trimGap l = [] := by
      have hnotMem := newline_notMem_trimGap hl
      cases htrim : trimGap l with
      | nil => simp
      | cons d l' =>
        rw [htrim] at hnotMem
        simpa using fun heq : d = '\n' ↦ hnotMem (heq ▸ List.mem_cons_self)
    rw [List.cons_append, dropLineEnds, ih hl, trimGap_cons]
    simp only [Bool.and_eq_true, beq_iff_eq, hhead]
    split
    case isTrue hgone => simp [hgone.2]
    case isFalse => rfl

theorem dropLineEnds_closeLines {ls : List (List Char)} (h : ∀ l ∈ ls, '\n' ∉ l) :
    dropLineEnds (closeLines ls) = closeLines (ls.map trimGap) := by
  induction ls with
  | nil => rfl
  | cons l ls ih =>
    rw [closeLines_cons, dropLineEnds_line (h l List.mem_cons_self),
      ih fun l' hl' ↦ h l' (List.mem_cons_of_mem l hl'), List.map_cons, closeLines_cons]

/-- The newlines before the code are dropped. -/
theorem dropOpening_newlines {s : List Char} (h : ∀ c ∈ s.head?, ¬ isBlank c) :
    dropOpening ('\n' :: '\n' :: '\n' :: s) = s := by
  have hs : s.takeWhile isBlank = [] ∧ s.dropWhile isBlank = s := by
    cases s with
    | nil => exact ⟨rfl, rfl⟩
    | cons c s => simp_all
  simp [dropOpening, hs, afterLastNewline]

/-- The blanks at the end of the last line stay. -/
theorem dropEnding_line (s : List Char) {l : List Char} (h : '\n' ∉ l) (hl : ∃ c ∈ l, ¬ isBlank c) :
    dropEnding (s ++ l ++ ['\n']) = s ++ l ++ ['\n'] := by
  obtain ⟨c, hmem, hc⟩ := hl
  obtain ⟨l₁, l₂, rfl⟩ := List.append_of_mem hmem
  have hl₂ : '\n' ∉ l₂ := fun hmem ↦ h (List.mem_append_right l₁ (List.mem_cons_of_mem c hmem))
  have hline : s ++ (l₁ ++ c :: l₂) = (s ++ l₁ ++ [c]) ++ l₂ := by simp
  rw [hline]
  exact dropEnding_eq_self (not_hasEnding_line (by simpa using hc) hl₂)

/-- A line of code: it has no newline in it and begins with no blank. -/
structure IsCodeLine (l : List Char) : Prop where
  newline : '\n' ∉ l
  head : ∃ c l', l = c :: l' ∧ ¬ isBlank c

/-- Of the lines of a program, tidying drops the gaps at their ends. -/
theorem tidy_closeLines {ls : List (List Char)} (h : ∀ l ∈ ls, IsCodeLine l) (hls : ls ≠ []) :
    tidy ('\n' :: '\n' :: '\n' :: closeLines ls) = closeLines (ls.map trimGap) := by
  have hhead : ∀ c ∈ (closeLines ls).head?, ¬ isBlank c := by
    obtain ⟨l, ls', rfl⟩ := List.exists_cons_of_ne_nil hls
    obtain ⟨c, l', rfl, hc⟩ := (h l List.mem_cons_self).head
    simpa using hc
  have hend : dropEnding (closeLines ls) = closeLines ls := by
    obtain ⟨ls', l, rfl⟩ := (List.eq_nil_or_concat' ls).resolve_left hls
    have hl := h l (by simp)
    obtain ⟨c, l', rfl, hc⟩ := hl.head
    have heq : closeLines (ls' ++ [c :: l']) = closeLines ls' ++ (c :: l') ++ ['\n'] := by
      simp [closeLines_append]
    rw [heq]
    exact dropEnding_line _ hl.newline ⟨c, List.mem_cons_self, hc⟩
  rw [tidy, dropOpening_newlines hhead, hend,
    dropLineEnds_closeLines fun l hl ↦ (h l hl).newline]

end Turtle.Text

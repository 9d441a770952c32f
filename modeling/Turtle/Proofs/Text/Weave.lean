import Mathlib.Algebra.Order.Group.Multiset
import Turtle.Proofs.Text.Lines
import Turtle.Text.Tidy

/-!
# Lines woven into a text

A text may be seen as another one with further lines between its own.  Each further line stands for
a mark and may be indented.  Texts are woven part by part, and they may be indented together; taking
the further lines out gives the first text back, and their number is that of the marks.
-/

namespace Turtle.Text

variable {M : Type} {line : M → List Char} {ms ms' : Multiset M}
  {ls₀ ls ls₀' ls' : List (List Char)}

/-- The second list consists of the lines of the first one, in order, and of the lines of some
marks, each behind a gap. -/
inductive Weave (line : M → List Char) :
    Multiset M → List (List Char) → List (List Char) → Prop
  | nil : Weave line 0 [] []
  | keep {ms : Multiset M} {ls₀ ls : List (List Char)} (l : List Char)
    (h : Weave line ms ls₀ ls) : Weave line ms (l :: ls₀) (l :: ls)
  | insert {ms : Multiset M} {ls₀ ls : List (List Char)} {gap : List Char}
    (hgap : ∀ c ∈ gap, isGap c) (m : M) (h : Weave line ms ls₀ ls) :
    Weave line (m ::ₘ ms) ls₀ ((gap ++ line m) :: ls)

namespace Weave

theorem refl (ls : List (List Char)) : Weave line 0 ls ls := by
  induction ls with
  | nil => exact .nil
  | cons l ls ih => exact ih.keep l

theorem append (h : Weave line ms ls₀ ls) (h' : Weave line ms' ls₀' ls') :
    Weave line (ms + ms') (ls₀ ++ ls₀') (ls ++ ls') := by
  induction h with
  | nil => rwa [zero_add]
  | keep l _ ih => exact ih.keep l
  | insert hgap m _ ih =>
    rw [Multiset.cons_add]
    exact ih.insert hgap m

/-- The line of a mark by itself. -/
theorem mark {gap : List Char} (hgap : ∀ c ∈ gap, isGap c) (m : M) :
    Weave line {m} [] [gap ++ line m] := nil.insert hgap m

/-- Both texts are indented. -/
theorem indent {p : List Char} (hp : ∀ c ∈ p, isGap c) (h : Weave line ms ls₀ ls) :
    Weave line ms (ls₀.map (p ++ ·)) (ls.map (p ++ ·)) := by
  induction h with
  | nil => exact .nil
  | keep l _ ih => exact ih.keep (p ++ l)
  | insert hgap m _ ih =>
    rw [List.map_cons, ← List.append_assoc]
    exact ih.insert (List.forall_mem_append.2 ⟨hp, hgap⟩) m

theorem ne_nil (h : Weave line ms ls₀ ls) (hls : ls₀ ≠ []) : ls ≠ [] := by
  cases h with
  | nil => exact hls
  | keep l _ => exact List.cons_ne_nil _ _
  | insert _ m _ => exact List.cons_ne_nil _ _

/-- Nothing is woven in for no marks. -/
theorem eq_of_zero (h : Weave line 0 ls₀ ls) : ls = ls₀ := by
  generalize hms : (0 : Multiset M) = ms at h
  induction h with
  | nil => rfl
  | keep l _ ih => rw [ih hms]
  | insert _ m _ => exact absurd hms (Multiset.zero_ne_cons)

/-- Taking out the lines of the marks. -/
theorem filter (h : Weave line ms ls₀ ls) {p : List Char → Bool} (hkeep : ∀ l ∈ ls₀, p l)
    (hline : ∀ gap : List Char, (∀ c ∈ gap, isGap c) → ∀ m, p (gap ++ line m) = false) :
    ls.filter p = ls₀ := by
  induction h with
  | nil => rfl
  | keep l _ ih =>
    rw [List.filter_cons_of_pos (hkeep l List.mem_cons_self),
      ih fun l' hl' ↦ hkeep l' (List.mem_cons_of_mem l hl')]
  | insert hgap m _ ih => rw [List.filter_cons_of_neg (by simp [hline _ hgap m]), ih hkeep]

/-- The lines of the marks, as they are told apart from the others. -/
theorem filter_marks {N : Type} (h : Weave line ms ls₀ ls) {p : List Char → Bool}
    (hkeep : ∀ l ∈ ls₀, p l = false) {f : List Char → N} {g : M → N}
    (hline : ∀ gap : List Char, (∀ c ∈ gap, isGap c) → ∀ m,
      p (gap ++ line m) ∧ f (gap ++ line m) = g m) :
    (↑((ls.filter p).map f) : Multiset N) = ms.map g := by
  induction h with
  | nil => rfl
  | keep l _ ih =>
    rw [List.filter_cons_of_neg (by simp [hkeep l List.mem_cons_self]),
      ih fun l' hl' ↦ hkeep l' (List.mem_cons_of_mem l hl')]
  | insert hgap m _ ih =>
    obtain ⟨hp, hf⟩ := hline _ hgap m
    rw [List.filter_cons_of_pos hp, List.map_cons, hf, ← Multiset.cons_coe, ih hkeep,
      Multiset.map_cons]

/-- The number of lines of a mark is that of the mark. -/
theorem countP [DecidableEq M] (h : Weave line ms ls₀ ls) (m : M) {p : List Char → Bool}
    (hkeep : ∀ l ∈ ls₀, p l = false) (hline : ∀ gap : List Char, (∀ c ∈ gap, isGap c) →
      ∀ m', p (gap ++ line m') = decide (m = m')) : ls.countP p = ms.count m := by
  induction h with
  | nil => rw [List.countP_nil, Multiset.count_zero]
  | keep l _ ih =>
    rw [List.countP_cons_of_neg (by simp [hkeep l List.mem_cons_self]),
      ih fun l' hl' ↦ hkeep l' (List.mem_cons_of_mem l hl')]
  | insert hgap m' _ ih =>
    rw [List.countP_cons, ih hkeep, hline _ hgap m', Multiset.count_cons]
    simp only [decide_eq_true_eq]

end Weave

end Turtle.Text

namespace Turtle

open Text (Weave closeLines isGap)

variable {M : Type} {line : M → List Char} {ms ms' : Multiset M} {s₀ s t₀ t : String}

/-- A text of complete lines, and the same text with the lines of some marks woven in. -/
def Woven (line : M → List Char) (ms : Multiset M) (s₀ s : String) : Prop :=
  ∃ ls₀ ls, s₀.toList = closeLines ls₀ ∧ s.toList = closeLines ls ∧ (∀ l ∈ ls₀, '\n' ∉ l) ∧
    (∀ l ∈ ls, '\n' ∉ l) ∧ Weave line ms ls₀ ls

namespace Woven

theorem empty : Woven line 0 "" "" := ⟨[], [], rfl, rfl, nofun, nofun, .nil⟩

/-- What stands there on a condition only. -/
theorem ite (h : Woven line ms "" s) (p : Prop) [Decidable p] :
    Woven line (if p then ms else 0) "" (if p then s else "") := by
  split
  · exact h
  · exact empty

/-- Any text is made of complete lines by a newline. -/
theorem same (s : String) : Woven line 0 (s ++ "\n") (s ++ "\n") := by
  have hlines : (s ++ "\n").toList = closeLines (Text.splitLines s.toList) := by
    rw [String.toList_append, Text.closeLines_splitLines]
    rfl
  exact ⟨_, _, hlines, hlines, fun _ ↦ Text.notMem_of_mem_splitLines,
    fun _ ↦ Text.notMem_of_mem_splitLines, .refl _⟩

theorem append (h : Woven line ms s₀ s) (h' : Woven line ms' t₀ t) :
    Woven line (ms + ms') (s₀ ++ t₀) (s ++ t) := by
  obtain ⟨ls₀, ls, hs₀, hs, hls₀, hls, hweave⟩ := h
  obtain ⟨ls₀', ls', ht₀, ht, hls₀', hls', hweave'⟩ := h'
  refine ⟨ls₀ ++ ls₀', ls ++ ls', ?_, ?_, ?_, ?_, hweave.append hweave'⟩
  · rw [String.toList_append, hs₀, ht₀, Text.closeLines_append]
  · rw [String.toList_append, hs, ht, Text.closeLines_append]
  · exact List.forall_mem_append.2 ⟨hls₀, hls₀'⟩
  · exact List.forall_mem_append.2 ⟨hls, hls'⟩

theorem concat (h : Woven line ms s₀ s) : Woven line ms (s₀ ++ "\n") (s ++ "\n") := by
  have hline := h.append (.same "")
  rwa [add_zero, String.empty_append] at hline

/-- The line of a mark, where the other text has nothing. -/
theorem mark {gap : List Char} (hgap : ∀ c ∈ gap, isGap c) {m : M} (hm : '\n' ∉ line m)
    (hs : s.toList = gap ++ line m ++ ['\n']) : Woven line {m} "" s := by
  refine ⟨[], [gap ++ line m], rfl, by simp [hs], nofun, ?_, .mark hgap m⟩
  rw [List.forall_mem_singleton, List.mem_append, not_or]
  exact ⟨fun hmem ↦ absurd (hgap _ hmem) (by decide), hm⟩

theorem lines_ne_nil {ls : List (List Char)} (hs : s.toList = closeLines ls) (h : s ≠ "") :
    ls ≠ [] := by
  rintro rfl
  exact h (String.toList_inj.1 hs)

theorem ne_empty (h : Woven line ms s₀ s) (hne : s₀ ≠ "") : s ≠ "" := by
  obtain ⟨ls₀, ls, hs₀, hs, -, -, hweave⟩ := h
  rintro rfl
  obtain ⟨l, rest, rfl⟩ := List.exists_cons_of_ne_nil (hweave.ne_nil (lines_ne_nil hs₀ hne))
  simp at hs

theorem eq_of_zero (h : Woven line 0 s₀ s) : s = s₀ := by
  obtain ⟨ls₀, ls, hs₀, hs, -, -, hweave⟩ := h
  rw [← String.toList_inj, hs₀, hs, hweave.eq_of_zero]

/-- Both texts are indented. -/
theorem indent {p : String} (hp : ∀ c ∈ p.toList, isGap c) (h : Woven line ms s₀ s)
    (hne : s₀ ≠ "") : Woven line ms (prefixLines p s₀) (prefixLines p s) := by
  obtain ⟨ls₀, ls, hs₀, hs, hls₀, hls, hweave⟩ := h
  have hne₀ := lines_ne_nil hs₀ hne
  have hnewline : ∀ l : List Char, '\n' ∉ l → '\n' ∉ p.toList ++ l := fun l hl hmem ↦
    (List.mem_append.1 hmem).elim (fun hmem ↦ absurd (hp _ hmem) (by decide)) hl
  refine ⟨ls₀.map (p.toList ++ ·), ls.map (p.toList ++ ·), ?_, ?_, ?_, ?_, hweave.indent hp⟩
  · rw [prefixLines, String.toList_ofList, hs₀, Text.prefixLines_closeLines hls₀ hne₀]
  · rw [prefixLines, String.toList_ofList, hs, Text.prefixLines_closeLines hls (hweave.ne_nil hne₀)]
  · exact List.forall_mem_map.2 fun l hl ↦ hnewline l (hls₀ l hl)
  · exact List.forall_mem_map.2 fun l hl ↦ hnewline l (hls l hl)

/-- What is woven is the lines of the texts. -/
theorem weave (h : Woven line ms (s₀ ++ "\n") (s ++ "\n")) :
    Weave line ms (Text.splitLines s₀.toList) (Text.splitLines s.toList) := by
  have hlines {s : String} {ls : List (List Char)} (hs : (s ++ "\n").toList = closeLines ls)
      (hls : ∀ l ∈ ls, '\n' ∉ l) : Text.splitLines s.toList = ls := by
    refine (Text.closeLines_inj (fun _ ↦ Text.notMem_of_mem_splitLines) hls).1 ?_
    rw [Text.closeLines_splitLines, ← hs, String.toList_append]
    rfl
  obtain ⟨ls₀, ls, hs₀, hs, hls₀, hls, hweave⟩ := h
  rwa [hlines hs₀ hls₀, hlines hs hls]

end Woven

end Turtle

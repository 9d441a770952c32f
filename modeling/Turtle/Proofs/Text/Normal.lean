import Mathlib.Data.List.Chain
import Mathlib.Data.List.DropRight
import Mathlib.Data.List.TakeWhile
import Turtle.Proofs.Text.Lines
import Turtle.Text.Tidy

/-!
# The normal form of white space

A text is tidy if it does not open with blank lines, ends in one newline at most, and has no gap in
front of a newline.  Tidying deletes blanks only, and deleting blanks does not bring about any of
this anew, so what one pass has removed is still missing after the next ones.
-/

namespace Turtle.Text

variable {s t u v : List Char} {c : Char}

/-! ## Normal form -/

/-- Some blanks and a newline behind them open the text. -/
def HasOpening (s : List Char) : Prop :=
  ∃ u v, s = u ++ '\n' :: v ∧ u ≠ [] ∧ ∀ c ∈ u, isBlank c

/-- A newline and some blanks behind it end the text. -/
def HasEnding (s : List Char) : Prop :=
  ∃ u v, s = u ++ '\n' :: v ∧ v ≠ [] ∧ ∀ c ∈ v, isBlank c

/-- Whether a character may stand in front of another one: in front of a newline no gap may. -/
abbrev MayPrecede (c d : Char) : Prop := d = '\n' → ¬ isGap c

/-- There is no white space to be tidied. -/
structure IsTidy (s : List Char) : Prop where
  lines : s.IsChain MayPrecede
  opening : ¬ HasOpening s
  ending : ¬ HasEnding s

/-! ## Deleting blanks -/

/-- `t` is what is left of `s` when some blanks are deleted. -/
inductive Thinned : List Char → List Char → Prop
  | nil : Thinned [] []
  | keep (c : Char) {s t : List Char} (h : Thinned s t) : Thinned (c :: s) (c :: t)
  | delete {c : Char} (hc : isBlank c) {s t : List Char} (h : Thinned s t) : Thinned (c :: s) t

namespace Thinned

theorem refl (s : List Char) : Thinned s s := by
  induction s with
  | nil => exact nil
  | cons c s ih => exact keep c ih

theorem trans {r : List Char} (h : Thinned r s) (h' : Thinned s t) : Thinned r t := by
  induction h generalizing t with
  | nil => exact h'
  | delete hc _ ih => exact delete hc (ih h')
  | keep c _ ih =>
    cases h' with
    | keep _ h' => exact keep c (ih h')
    | delete hc h' => exact delete hc (ih h')

theorem append_left (s : List Char) (h : Thinned t u) : Thinned (s ++ t) (s ++ u) := by
  induction s with
  | nil => exact h
  | cons c s ih => exact keep c ih

theorem of_blank (hs : ∀ c ∈ s, isBlank c) : Thinned s [] := by
  induction s with
  | nil => exact nil
  | cons c s ih =>
    obtain ⟨hc, hs⟩ := List.forall_mem_cons.1 hs
    exact delete hc (ih hs)

theorem drop_left (hs : ∀ c ∈ s, isBlank c) (t : List Char) : Thinned (s ++ t) t := by
  induction s with
  | nil => exact refl t
  | cons c s ih =>
    obtain ⟨hc, hs⟩ := List.forall_mem_cons.1 hs
    exact delete hc (ih hs)

theorem ne_nil (h : Thinned s t) (ht : t ≠ []) : s ≠ [] := by
  rintro rfl
  cases h
  exact ht rfl

/-- Only blanks are deleted, so a text is blank if what is left of it is. -/
theorem blank (h : Thinned s t) (ht : ∀ c ∈ t, isBlank c) : ∀ c ∈ s, isBlank c := by
  induction h with
  | nil => exact ht
  | keep c _ ih =>
    obtain ⟨hc, ht⟩ := List.forall_mem_cons.1 ht
    exact List.forall_mem_cons.2 ⟨hc, ih ht⟩
  | delete hc _ ih => exact List.forall_mem_cons.2 ⟨hc, ih ht⟩

/-- A character that is left was there, with the text before and behind it. -/
theorem split (h : Thinned s (u ++ c :: v)) :
    ∃ u₀ v₀, s = u₀ ++ c :: v₀ ∧ Thinned u₀ u ∧ Thinned v₀ v := by
  obtain ⟨t, ht⟩ : ∃ t, t = u ++ c :: v := ⟨_, rfl⟩
  rw [← ht] at h
  induction h generalizing u with
  | nil => simp at ht
  | keep d h ih =>
    cases u with
    | nil =>
      cases ht
      exact ⟨[], _, rfl, nil, h⟩
    | cons e u =>
      obtain ⟨rfl, hrest⟩ := List.cons.inj ht
      obtain ⟨u₀, v₀, rfl, hu, hv⟩ := ih hrest
      exact ⟨d :: u₀, v₀, rfl, keep d hu, hv⟩
  | @delete d hd s t _ ih =>
    obtain ⟨u₀, v₀, rfl, hu, hv⟩ := ih ht
    exact ⟨d :: u₀, v₀, rfl, delete hd hu, hv⟩

theorem hasOpening (h : Thinned s t) : HasOpening t → HasOpening s := by
  rintro ⟨u, v, rfl, hne, hblank⟩
  obtain ⟨u₀, v₀, rfl, hu, -⟩ := h.split
  exact ⟨u₀, v₀, rfl, hu.ne_nil hne, hu.blank hblank⟩

theorem hasEnding (h : Thinned s t) : HasEnding t → HasEnding s := by
  rintro ⟨u, v, rfl, hne, hblank⟩
  obtain ⟨u₀, v₀, rfl, -, hv⟩ := h.split
  exact ⟨u₀, v₀, rfl, hv.ne_nil hne, hv.blank hblank⟩

end Thinned

/-! ## The opening -/

theorem contains_takeWhile_iff : (s.takeWhile isBlank).contains '\n' ↔
    ∃ u v, s = u ++ '\n' :: v ∧ ∀ c ∈ u, isBlank c := by
  rw [List.contains_iff_mem]
  constructor
  · intro hmem
    obtain ⟨u, v, heq⟩ := List.append_of_mem hmem
    refine ⟨u, v ++ s.dropWhile isBlank, ?_, fun c hc ↦ ?_⟩
    · rw [← List.cons_append, ← List.append_assoc, ← heq, List.takeWhile_append_dropWhile]
    · exact List.mem_takeWhile_imp (heq ▸ List.mem_append_left _ hc)
  · rintro ⟨u, v, rfl, hblank⟩
    rw [List.takeWhile_append_of_pos hblank, List.takeWhile_cons_of_pos isBlank_newline]
    exact List.mem_append_right u List.mem_cons_self

/-- The opening that is dropped. -/
theorem hasOpening_cons_iff : HasOpening (c :: s) ↔
    (isBlank c && (s.takeWhile isBlank).contains '\n') = true := by
  rw [Bool.and_eq_true, contains_takeWhile_iff]
  constructor
  · rintro ⟨u, v, heq, hne, hblank⟩
    obtain ⟨d, u, rfl⟩ := List.exists_cons_of_ne_nil hne
    obtain ⟨rfl, rfl⟩ := List.cons.inj heq
    obtain ⟨hc, hu⟩ := List.forall_mem_cons.1 hblank
    exact ⟨hc, u, v, rfl, hu⟩
  · rintro ⟨hc, u, v, rfl, hu⟩
    exact ⟨c :: u, v, rfl, List.cons_ne_nil c u, List.forall_mem_cons.2 ⟨hc, hu⟩⟩

theorem dropOpening_cons_of_not (h : ¬ HasOpening (c :: s)) : dropOpening (c :: s) = c :: s := by
  rw [dropOpening, if_neg (hasOpening_cons_iff.not.1 h)]

theorem dropOpening_eq_self (h : ¬ HasOpening s) : dropOpening s = s := by
  cases s with
  | nil => rfl
  | cons c s => exact dropOpening_cons_of_not h

theorem newline_notMem_afterLastNewline (s : List Char) : '\n' ∉ afterLastNewline s := by
  intro hmem
  have := List.mem_takeWhile_imp (List.mem_reverse.1 hmem)
  exact absurd this (by decide)

theorem exists_append_afterLastNewline (s : List Char) : ∃ u, s = u ++ afterLastNewline s := by
  refine ⟨(s.reverse.dropWhile (· != '\n')).reverse, ?_⟩
  rw [afterLastNewline, ← List.reverse_append, List.takeWhile_append_dropWhile,
    List.reverse_reverse]

/-- Blanks in front are dropped. -/
theorem exists_append_dropOpening (s : List Char) :
    ∃ u, s = u ++ dropOpening s ∧ ∀ c ∈ u, isBlank c := by
  cases s with
  | nil => exact ⟨[], rfl, nofun⟩
  | cons c s =>
    by_cases h : HasOpening (c :: s)
    · have hcond := hasOpening_cons_iff.1 h
      obtain ⟨u, hu⟩ := exists_append_afterLastNewline (s.takeWhile isBlank)
      refine ⟨c :: u, ?_, List.forall_mem_cons.2 ⟨(Bool.and_eq_true_iff.1 hcond).1, fun d hd ↦ ?_⟩⟩
      · rw [dropOpening, if_pos hcond, List.cons_append, ← List.append_assoc, ← hu,
          List.takeWhile_append_dropWhile]
      · exact List.mem_takeWhile_imp (hu ▸ List.mem_append_left _ hd)
    · exact ⟨[], (dropOpening_cons_of_not h).symm, nofun⟩

theorem thinned_dropOpening (s : List Char) : Thinned s (dropOpening s) := by
  obtain ⟨u, hs, hu⟩ := exists_append_dropOpening s
  have h := Thinned.drop_left hu (dropOpening s)
  rwa [← hs] at h

/-- A line that is not the last one is ended by its newline, so blanks in front of a character that
is not blank do not open a text unless they have a newline. -/
theorem not_hasOpening_append (hs : '\n' ∉ s) (ht : ∀ c ∈ t.head?, ¬ isBlank c) :
    ¬ HasOpening (s ++ t) := by
  rintro ⟨u, v, heq, -, hblank⟩
  have hhead (w : List Char) (hw : t = w ++ '\n' :: v) (hwu : w ⊆ u) : False := by
    cases w with
    | nil => exact ht '\n' (by rw [hw]; rfl) isBlank_newline
    | cons d w => exact ht d (by rw [hw]; rfl) (hblank d (hwu List.mem_cons_self))
  rcases List.append_eq_append_iff.1 heq with ⟨w, rfl, hw⟩ | ⟨w, rfl, hw⟩
  · exact hhead w hw (List.subset_append_right s w)
  · cases w with
    | nil => exact hhead [] hw.symm (List.nil_subset u)
    | cons d w =>
      obtain ⟨rfl, -⟩ := List.cons.inj hw
      exact hs (List.mem_append_right u List.mem_cons_self)

theorem not_hasOpening_dropOpening (s : List Char) : ¬ HasOpening (dropOpening s) := by
  cases s with
  | nil => rintro ⟨u, v, heq, -⟩; simp [dropOpening] at heq
  | cons c s =>
    by_cases h : HasOpening (c :: s)
    · rw [dropOpening, if_pos (hasOpening_cons_iff.1 h)]
      apply not_hasOpening_append (newline_notMem_afterLastNewline _)
      intro d hd
      have hnot := List.head?_dropWhile_not isBlank s
      rw [Option.mem_def.1 hd] at hnot
      exact Bool.eq_false_iff.1 hnot
    · rwa [dropOpening_cons_of_not h]

/-! ## The ending -/

/-- Behind what is not blank, the ending is a line and, if a newline ends it, some more blanks,
which are dropped. -/
theorem dropEnding_cases (s : List Char) :
    ('\n' ∉ s.rtakeWhile isBlank ∧ dropEnding s = s) ∨
      ∃ line rest, s = s.rdropWhile isBlank ++ line ++ '\n' :: rest ∧ '\n' ∉ line ∧
        (∀ c ∈ rest, isBlank c) ∧ dropEnding s = s.rdropWhile isBlank ++ line ++ ['\n'] := by
  have hs : s.rdropWhile isBlank ++ s.rtakeWhile isBlank = s := List.rdropWhile_append_rtakeWhile
  have heq : dropEnding s = s.rdropWhile isBlank ++
      if (s.rtakeWhile isBlank).contains '\n' then
        (s.rtakeWhile isBlank).takeWhile (· != '\n') ++ ['\n']
      else s.rtakeWhile isBlank := rfl
  simp only [List.contains_iff_mem] at heq
  by_cases hmem : '\n' ∈ s.rtakeWhile isBlank
  · obtain ⟨line, rest, hblank, hline⟩ := List.eq_append_cons_of_mem hmem
    refine .inr ⟨line, rest, ?_, hline, fun c hc ↦ ?_, ?_⟩
    · rw [List.append_assoc, ← hblank, hs]
    · apply List.mem_rtakeWhile_imp
      rw [hblank]
      exact List.mem_append_right line (List.mem_cons_of_mem '\n' hc)
    · rw [heq, if_pos hmem, hblank, takeWhile_bne hline, List.append_assoc]
  · rw [if_neg hmem, hs] at heq
    exact .inl ⟨hmem, heq⟩

theorem thinned_dropEnding (s : List Char) : Thinned s (dropEnding s) := by
  rcases dropEnding_cases s with ⟨-, heq⟩ | ⟨line, rest, hs, -, hrest, heq⟩
  · rw [heq]
    exact .refl s
  · have h := Thinned.append_left (s.rdropWhile isBlank ++ line)
      (.keep '\n' (Thinned.of_blank hrest))
    rwa [← hs, ← heq] at h

/-- Without a newline, blanks behind a character that is not blank do not end a text. -/
theorem not_blank_of_append (hs : ∀ c ∈ s.getLast?, ¬ isBlank c) (ht : '\n' ∉ t)
    (heq : s ++ t = u ++ '\n' :: v) : ¬ ∀ c ∈ v, isBlank c := by
  intro hblank
  rcases List.append_eq_append_iff.1 heq with ⟨w, rfl, rfl⟩ | ⟨w, rfl, hw⟩
  · exact ht (List.mem_append_right w List.mem_cons_self)
  · cases w with
    | nil =>
      rw [List.nil_append] at hw
      exact ht (hw ▸ List.mem_cons_self)
    | cons d w =>
      obtain ⟨rfl, rfl⟩ := List.cons.inj hw
      have hmem : ∀ c ∈ '\n' :: w, isBlank c := List.forall_mem_cons.2
        ⟨isBlank_newline, fun c hc ↦ hblank c (List.mem_append_left t hc)⟩
      have hlast := List.getLast_mem (List.cons_ne_nil '\n' w)
      refine hs _ ?_ (hmem _ hlast)
      rw [List.getLast?_append_of_ne_nil u (List.cons_ne_nil '\n' w),
        List.getLast?_eq_some_getLast (List.cons_ne_nil '\n' w)]
      rfl

/-- The newline of a last line that is not blank is not followed by anything. -/
theorem not_hasEnding_line (hs : ∀ c ∈ s.getLast?, ¬ isBlank c) (ht : '\n' ∉ t) :
    ¬ HasEnding (s ++ t ++ ['\n']) := by
  rintro ⟨u, v, heq, hne, hblank⟩
  obtain ⟨v, d, rfl⟩ := (List.eq_nil_or_concat' v).resolve_left hne
  rw [← List.cons_append, ← List.append_assoc] at heq
  have hfront := List.append_inj_left' heq rfl
  exact not_blank_of_append hs ht hfront fun c hc ↦ hblank c (List.mem_append_left [d] hc)

theorem not_hasEnding_dropEnding (s : List Char) : ¬ HasEnding (dropEnding s) := by
  have hkept : ∀ c ∈ (s.rdropWhile isBlank).getLast?, ¬ isBlank c := by
    intro c hc
    obtain ⟨hne, rfl⟩ := List.mem_getLast?_eq_getLast hc
    exact List.rdropWhile_last_not isBlank s hne
  rcases dropEnding_cases s with ⟨hnot, heq⟩ | ⟨line, rest, -, hline, -, heq⟩
  · have hs : s.rdropWhile isBlank ++ s.rtakeWhile isBlank = s := List.rdropWhile_append_rtakeWhile
    rintro ⟨u, v, hsplit, -, hblank⟩
    rw [heq, ← hs] at hsplit
    exact not_blank_of_append hkept hnot hsplit hblank
  · rw [heq]
    exact not_hasEnding_line hkept hline

theorem dropEnding_eq_self (h : ¬ HasEnding s) : dropEnding s = s := by
  rcases dropEnding_cases s with ⟨-, heq⟩ | ⟨line, rest, hs, -, hrest, heq⟩
  · exact heq
  · cases rest with
    | nil => rw [heq, ← hs]
    | cons c rest => exact absurd ⟨_, c :: rest, hs, List.cons_ne_nil c rest, hrest⟩ h

/-! ## The ends of lines -/

theorem thinned_dropLineEnds (s : List Char) : Thinned s (dropLineEnds s) := by
  induction s with
  | nil => exact .nil
  | cons c s ih =>
    simp only [dropLineEnds]
    split
    case isTrue h => exact .delete (isBlank_of_isGap (Bool.and_eq_true_iff.1 h).1) ih
    case isFalse => exact .keep c ih

theorem isChain_dropLineEnds (s : List Char) : (dropLineEnds s).IsChain MayPrecede := by
  induction s with
  | nil => exact List.isChain_nil
  | cons c s ih =>
    simp only [dropLineEnds]
    split
    case isTrue => exact ih
    case isFalse h =>
      refine List.isChain_cons.2 ⟨?_, ih⟩
      rintro _ hd rfl hc
      rw [Bool.and_eq_true, beq_iff_eq] at h
      exact h ⟨hc, hd⟩

theorem dropLineEnds_eq_self (h : s.IsChain MayPrecede) : dropLineEnds s = s := by
  induction s with
  | nil => rfl
  | cons c s ih =>
    obtain ⟨hc, hs⟩ := List.isChain_cons.1 h
    simp only [dropLineEnds, ih hs]
    rw [if_neg]
    rw [Bool.and_eq_true, beq_iff_eq]
    rintro ⟨hgap, hhead⟩
    exact hc '\n' hhead rfl hgap

/-! ## All passes -/

theorem thinned_tidy (s : List Char) : Thinned s (tidy s) :=
  ((thinned_dropOpening s).trans (thinned_dropEnding _)).trans (thinned_dropLineEnds _)

/-- What a pass removes is still missing after the next ones, which delete blanks only. -/
theorem isTidy_tidy (s : List Char) : IsTidy (tidy s) where
  lines := isChain_dropLineEnds _
  opening h := not_hasOpening_dropOpening s
    ((thinned_dropEnding _).hasOpening ((thinned_dropLineEnds _).hasOpening h))
  ending h := not_hasEnding_dropEnding (dropOpening s) ((thinned_dropLineEnds _).hasEnding h)

theorem tidy_eq_self_iff : tidy s = s ↔ IsTidy s := by
  constructor
  · intro h
    rw [← h]
    exact isTidy_tidy s
  · rintro ⟨hlines, hopening, hending⟩
    rw [tidy, dropOpening_eq_self hopening, dropEnding_eq_self hending, dropLineEnds_eq_self hlines]

end Turtle.Text

namespace Turtle

/-- There is no white space to be tidied. -/
def IsTidy (s : String) : Prop := Text.IsTidy s.toList

/-- Tidying deletes some blanks so that no white space is left to be tidied, and a text is left as
it is if and only if there was none. -/
theorem tidy_normal (s : String) :
    IsTidy (tidy s) ∧ Text.Thinned s.toList (tidy s).toList ∧ (tidy s = s ↔ IsTidy s) ∧
      tidy (tidy s) = tidy s := by
  have hiff (s : String) : tidy s = s ↔ IsTidy s := by
    rw [IsTidy, ← Text.tidy_eq_self_iff, tidy, ← String.toList_inj, String.toList_ofList]
  have htidy : IsTidy (tidy s) := by
    rw [IsTidy, tidy, String.toList_ofList]
    exact Text.isTidy_tidy s.toList
  refine ⟨htidy, ?_, hiff s, (hiff (tidy s)).2 htidy⟩
  rw [tidy, String.toList_ofList]
  exact Text.thinned_tidy s.toList

example : tidy "\n \nfd 10 \t\n\nrt 90\n\n  " = "fd 10\n\nrt 90\n" := by decide

end Turtle

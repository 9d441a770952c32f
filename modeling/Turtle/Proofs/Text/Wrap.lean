import Mathlib.Data.List.Chain
import Mathlib.Data.List.Forall2
import Turtle.Proofs.Text.Lines
import Turtle.Proofs.Text.Words
import Turtle.Text.Wrap

/-!
# Greedy layouts

A layout cuts the words of a paragraph into lines.  It is greedy if every line that can hold the
next word does.  Words have one greedy layout only, and wrapping finds it; so a text that is wrapped
is not changed by wrapping it again.
-/

namespace Turtle.Text

variable {limit : Nat} {ws line more : List (List Char)} {lines rest : List (List (List Char))}

/-! ## Layouts -/

/-- The line is within the limit, or it is a single word. -/
def Fits (limit : Nat) (line : List (List Char)) : Prop :=
  (spaced line).length ≤ limit ∨ line.length = 1

/-- The line has no room for the first word of the next one. -/
def IsFull (limit : Nat) (line next : List (List Char)) : Prop :=
  ∀ w ∈ next.head?, limit < (spaced line).length + 1 + w.length

/-- The greedy layout of some words in lines. -/
structure LaysOut (limit : Nat) (ws : List (List Char)) (lines : List (List (List Char))) :
    Prop where
  /-- The words are kept in their order. -/
  words : lines.flatten = ws
  /-- Every line has words; for no words at all there is one empty line. -/
  filled : lines = [[]] ∨ lines ≠ [] ∧ [] ∉ lines
  fits : ∀ line ∈ lines, Fits limit line
  full : lines.IsChain (IsFull limit)

/-- The text with these lines of words. -/
def layoutText (lines : List (List (List Char))) : List Char := joinLines (lines.map spaced)

/-- The text `t` has, for each paragraph of `s`, a greedy layout of the words of the paragraph. -/
def IsWrapped (limit : Nat) (s t : List Char) : Prop :=
  ∃ layouts,
    List.Forall₂ (fun paragraph lines ↦ ∃ ws, HasWords paragraph ws ∧ LaysOut limit ws lines)
      (splitLines s) layouts ∧
    t = joinLines (layouts.map layoutText)

/-! ## Finding the layout -/

/-- The lines that `line` and the words after it fill, as lists of words. -/
def layFrom (limit : Nat) (line : List (List Char)) : List (List Char) → List (List (List Char))
  | [] => [line]
  | w :: ws =>
    if (spaced line).length + 1 + w.length ≤ limit then layFrom limit (line ++ [w]) ws
    else line :: layFrom limit [w] ws

/-- The lines that some words fill, as lists of words. -/
def lay (limit : Nat) : List (List Char) → List (List (List Char))
  | [] => [[]]
  | w :: ws => layFrom limit [w] ws

theorem spaced_concat (hline : line ≠ []) (w : List Char) :
    spaced (line ++ [w]) = spaced line ++ ' ' :: w := by
  rw [spaced_append hline (List.cons_ne_nil w []), spaced_singleton]

theorem map_spaced_layFrom (hline : line ≠ []) :
    (layFrom limit line ws).map spaced = fillFrom limit (spaced line) ws := by
  induction ws generalizing line with
  | nil => rfl
  | cons w ws ih =>
    rw [layFrom, fillFrom]
    split
    · rw [ih (List.append_ne_nil_of_left_ne_nil hline [w]), spaced_concat hline]
    · rw [List.map_cons, ih (List.cons_ne_nil w []), spaced_singleton]

theorem map_spaced_lay : (lay limit ws).map spaced = fill limit ws := by
  cases ws with
  | nil => rfl
  | cons w ws => rw [lay, map_spaced_layFrom (List.cons_ne_nil w []), spaced_singleton, fill]

theorem layFrom_eq_cons (limit : Nat) (line ws : List (List Char)) :
    ∃ more rest, layFrom limit line ws = (line ++ more) :: rest := by
  induction ws generalizing line with
  | nil => exact ⟨[], [], by rw [List.append_nil, layFrom]⟩
  | cons w ws ih =>
    rw [layFrom]
    split
    · obtain ⟨more, rest, heq⟩ := ih (line ++ [w])
      exact ⟨w :: more, rest, by rw [heq, List.append_assoc, List.singleton_append]⟩
    · exact ⟨[], layFrom limit [w] ws, by rw [List.append_nil]⟩

/-- By induction on the words: a line that has been begun and fits is completed to a greedy
layout. -/
theorem laysOut_layFrom (hne : line ≠ []) (hfits : Fits limit line) :
    LaysOut limit (line ++ ws) (layFrom limit line ws) := by
  induction ws generalizing line with
  | nil =>
    constructor
    · rw [layFrom, List.flatten_singleton, List.append_nil]
    · exact .inr ⟨List.cons_ne_nil line [], by simpa [layFrom] using hne.symm⟩
    · exact List.forall_mem_singleton.2 hfits
    · exact List.isChain_singleton line
  | cons w ws ih =>
    rw [layFrom]
    split
    case isTrue hroom =>
      have hmore : Fits limit (line ++ [w]) := by
        left
        rw [spaced_concat hne, List.length_append, List.length_cons]
        omega
      have hrest := ih (List.append_ne_nil_of_left_ne_nil hne [w]) hmore
      rwa [List.append_assoc, List.singleton_append] at hrest
    case isFalse hroom =>
      have hrest := ih (List.cons_ne_nil w []) (.inr rfl)
      obtain ⟨more, rest, heq⟩ := layFrom_eq_cons limit [w] ws
      have hlast : ¬ layFrom limit [w] ws = [[]] := by simp [heq]
      constructor
      · rw [List.flatten_cons, hrest.words, List.singleton_append]
      · refine .inr ⟨List.cons_ne_nil line _, ?_⟩
        rw [List.mem_cons, not_or]
        exact ⟨hne.symm, (hrest.filled.resolve_left hlast).2⟩
      · exact List.forall_mem_cons.2 ⟨hfits, hrest.fits⟩
      · have hfull := hrest.full
        rw [heq] at hfull ⊢
        refine List.isChain_cons_cons.2 ⟨?_, hfull⟩
        rintro v ⟨rfl⟩
        exact not_le.1 hroom

theorem laysOut_lay (limit : Nat) (ws : List (List Char)) : LaysOut limit ws (lay limit ws) := by
  cases ws with
  | nil =>
    exact ⟨rfl, .inl rfl, List.forall_mem_singleton.2 (.inl (Nat.zero_le limit)),
      List.isChain_singleton []⟩
  | cons w ws => exact laysOut_layFrom (List.cons_ne_nil w []) (.inr rfl)

/-- A word that stands behind others in a line that fits had room there. -/
theorem room_of_fits (hne : line ≠ []) {w : List Char} (h : Fits limit (line ++ w :: more)) :
    (spaced line).length + 1 + w.length ≤ limit := by
  have hmore : (spaced line).length + 1 + w.length ≤ (spaced (line ++ w :: more)).length := by
    rw [spaced_append hne (List.cons_ne_nil w more), List.length_append, List.length_cons]
    cases more with
    | nil => rw [spaced_singleton]; omega
    | cons v more => rw [spaced_cons_cons, List.length_append]; omega
  rcases h with hlength | hlength
  · exact hmore.trans hlength
  · have hpos := List.length_pos_of_ne_nil hne
    rw [List.length_append, List.length_cons] at hlength
    omega

/-- Behind a line that has words, the words to come are in the line while they fit, by `Fits`, and
begin the next one otherwise, by `IsFull`. -/
theorem layFrom_eq (hne : line ≠ []) (hrest : [] ∉ rest)
    (hfits : ∀ l ∈ (line ++ more) :: rest, Fits limit l)
    (hfull : ((line ++ more) :: rest).IsChain (IsFull limit)) :
    layFrom limit line (more ++ rest.flatten) = (line ++ more) :: rest := by
  obtain ⟨ws, hws⟩ : ∃ ws, ws = more ++ rest.flatten := ⟨_, rfl⟩
  rw [← hws]
  induction ws generalizing line more rest with
  | nil =>
    obtain ⟨rfl, hflatten⟩ := List.append_eq_nil_iff.1 hws.symm
    cases rest with
    | nil => rw [layFrom, List.append_nil]
    | cons l rest =>
      have hl := List.flatten_eq_nil_iff.1 hflatten l List.mem_cons_self
      exact absurd (hl ▸ List.mem_cons_self) hrest
  | cons w ws ih =>
    cases more with
    | nil =>
      cases rest with
      | nil => cases hws
      | cons l rest =>
        rw [List.mem_cons, not_or] at hrest
        obtain ⟨v, more, rfl⟩ := List.exists_cons_of_ne_nil (Ne.symm hrest.1)
        rw [List.nil_append, List.flatten_cons, List.cons_append, List.cons.injEq] at hws
        obtain ⟨rfl, rfl⟩ := hws
        obtain ⟨hline, hfull⟩ := List.isChain_cons_cons.1 hfull
        rw [List.append_nil] at hline ⊢
        rw [layFrom, if_neg (not_le.2 (hline w rfl))]
        have hnext : layFrom limit [w] (more ++ rest.flatten) = ([w] ++ more) :: rest :=
          ih (List.cons_ne_nil w []) hrest.2 (List.forall_mem_cons.1 hfits).2 hfull rfl
        rw [hnext, List.singleton_append]
    | cons v more =>
      obtain ⟨rfl, rfl⟩ := List.cons.inj hws
      have hroom := room_of_fits hne (hfits _ List.mem_cons_self)
      have happend : line ++ w :: more = (line ++ [w]) ++ more := by simp
      rw [happend] at hfits hfull
      rw [layFrom, if_pos hroom, happend]
      exact ih (List.append_ne_nil_of_left_ne_nil hne [w]) hrest hfits hfull rfl

/-- Words have one greedy layout. -/
theorem laysOut_iff : LaysOut limit ws lines ↔ lay limit ws = lines := by
  constructor
  · intro h
    obtain ⟨rfl, hfilled, hfits, hfull⟩ := h
    rcases hfilled with rfl | ⟨hne, hnil⟩
    · rfl
    · obtain ⟨line, rest, rfl⟩ := List.exists_cons_of_ne_nil hne
      rw [List.mem_cons, not_or] at hnil
      obtain ⟨w, more, rfl⟩ := List.exists_cons_of_ne_nil (Ne.symm hnil.1)
      exact layFrom_eq (List.cons_ne_nil w []) hnil.2 hfits hfull
  · rintro rfl
    exact laysOut_lay limit ws

theorem lay_ne_nil (limit : Nat) (ws : List (List Char)) : lay limit ws ≠ [] := by
  rcases (laysOut_lay limit ws).filled with heq | hfilled
  · rw [heq]
    exact List.cons_ne_nil [] []
  · exact hfilled.1

/-! ## Wrapping -/

theorem wrapParagraph_eq (limit : Nat) (s : List Char) :
    wrapParagraph limit s = layoutText (lay limit (words s)) := by
  rw [wrapParagraph, layoutText, map_spaced_lay]

theorem wrap_eq (limit : Nat) (s : List Char) :
    wrap limit s = joinLines
      (((splitLines s).map fun paragraph ↦ lay limit (words paragraph)).map layoutText) := by
  rw [wrap, List.map_map]
  exact congrArg joinLines (List.map_congr_left fun paragraph _ ↦ wrapParagraph_eq limit paragraph)

/-- A text is wrapped in the greedy way, and this determines the result. -/
theorem isWrapped_iff {s t : List Char} : IsWrapped limit s t ↔ wrap limit s = t := by
  have hlayout (paragraph : List Char) (lines : List (List (List Char))) :
      (∃ ws, HasWords paragraph ws ∧ LaysOut limit ws lines) ↔
        lay limit (words paragraph) = lines := by
    simp only [hasWords_iff, laysOut_iff, exists_eq_left']
  have hlayouts (layouts : List (List (List (List Char)))) :
      List.Forall₂ (fun paragraph lines ↦ lay limit (words paragraph) = lines) (splitLines s)
          layouts ↔
        (splitLines s).map (fun paragraph ↦ lay limit (words paragraph)) = layouts := by
    rw [← List.forall₂_map_left_iff (R := Eq), List.forall₂_eq_eq_eq]
  rw [wrap_eq, IsWrapped]
  simp only [hlayout, hlayouts]
  constructor
  · rintro ⟨layouts, rfl, rfl⟩
    rfl
  · intro h
    exact ⟨_, rfl, h.symm⟩

/-! ## Wrapping again -/

/-- The lines of all paragraphs, as lists of words. -/
def layouts (limit : Nat) (s : List Char) : List (List (List Char)) :=
  ((splitLines s).map fun paragraph ↦ lay limit (words paragraph)).flatten

theorem wrap_eq_joinLines (limit : Nat) (s : List Char) :
    wrap limit s = joinLines ((layouts limit s).map spaced) := by
  have hne : ∀ ls ∈ ((splitLines s).map fun paragraph ↦ lay limit (words paragraph)).map
      (List.map spaced), ls ≠ [] := by
    rw [List.map_map]
    intro ls hls
    obtain ⟨paragraph, -, rfl⟩ := List.mem_map.1 hls
    exact List.map_eq_nil_iff.not.2 (lay_ne_nil limit (words paragraph))
  rw [wrap_eq, layouts, List.map_flatten, ← joinLines_map_joinLines hne, List.map_map,
    List.map_map, List.map_map]
  rfl

/-- A line of a layout is laid out as it is. -/
theorem wrapParagraph_spaced (hwords : ∀ w ∈ line, IsWord w) (hfits : Fits limit line) :
    wrapParagraph limit (spaced line) = spaced line := by
  have hlay : LaysOut limit line [line] := by
    constructor
    · exact List.flatten_singleton
    · by_cases hne : line = []
      · exact .inl (by rw [hne])
      · exact .inr ⟨List.cons_ne_nil line [], by simpa using Ne.symm hne⟩
    · exact List.forall_mem_singleton.2 hfits
    · exact List.isChain_singleton line
  rw [wrapParagraph_eq, hasWords_iff.1 (hasWords_spaced hwords), laysOut_iff.1 hlay]
  rfl

/-- A text that is wrapped stays as it is, since its paragraphs are the lines of the layouts. -/
theorem wrap_wrap (limit : Nat) (s : List Char) : wrap limit (wrap limit s) = wrap limit s := by
  have hline : ∀ line ∈ layouts limit s, (∀ w ∈ line, IsWord w) ∧ Fits limit line := by
    intro line hline
    obtain ⟨_, hlines, hline⟩ := List.mem_flatten.1 hline
    obtain ⟨paragraph, -, rfl⟩ := List.mem_map.1 hlines
    have hlay := laysOut_lay limit (words paragraph)
    refine ⟨fun w hw ↦ ?_, hlay.fits line hline⟩
    apply (hasWords_iff.2 rfl : HasWords paragraph _).isWord
    rw [← hlay.words]
    exact List.mem_flatten_of_mem hline hw
  have hsplit : splitLines (wrap limit s) = (layouts limit s).map spaced := by
    rw [wrap_eq_joinLines]
    apply splitLines_joinLines
    · obtain ⟨paragraph, rest, heq⟩ := List.exists_cons_of_ne_nil (splitLines_ne_nil s)
      simp [layouts, heq, lay_ne_nil]
    · intro l hl
      obtain ⟨line, hmem, rfl⟩ := List.mem_map.1 hl
      exact newline_notMem_spaced (hline line hmem).1
  rw [wrap, hsplit, wrap_eq_joinLines, List.map_map]
  refine congrArg joinLines (List.map_congr_left fun line hmem ↦ ?_)
  exact wrapParagraph_spaced (hline line hmem).1 (hline line hmem).2

end Turtle.Text

namespace Turtle

/-- The text `t` has the paragraphs of `s`, each in the greedy layout of its words. -/
def IsWrapped (limit : Nat) (s t : String) : Prop := Text.IsWrapped limit s.toList t.toList

/-- Wrapping a text lays out its paragraphs in the greedy way, which is possible in one way only,
and what is wrapped is not changed by wrapping it again. -/
theorem wrap_greedy (limit : Nat) (s : String) :
    (∀ t, IsWrapped limit s t ↔ wrap limit s = t) ∧
      wrap limit (wrap limit s) = wrap limit s := by
  constructor
  · intro t
    rw [IsWrapped, Text.isWrapped_iff, wrap, ← String.toList_inj, String.toList_ofList]
  · rw [wrap, wrap, String.toList_ofList, Text.wrap_wrap]

example : wrap 7 "one two  three\n\nenormous x" = "one two\nthree\n\nenormous\nx" := by decide

end Turtle

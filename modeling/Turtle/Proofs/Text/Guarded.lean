import Mathlib.Data.List.Chain
import Mathlib.Data.List.TakeWhile
import Turtle.Logo.Word
import Turtle.Proofs.Identifier.Legal
import Turtle.Proofs.Number.Characters
import Turtle.Proofs.Text.Case
import Turtle.Proofs.Text.Lines
import Turtle.Proofs.Text.Texture
import Turtle.Text.Tidy

/-!
# Texts without comments

In Logo a semicolon opens a comment unless a backslash stands in front of it.  A text all of whose
semicolons are guarded in this way has no line that is a comment, and it stays so when it is
indented or put together with others.
-/

namespace Turtle.Text

variable {s t p l : List Char} {c : Char}

/-- Whether a character may stand behind another one: a semicolon only behind a backslash. -/
abbrev MayFollow (c d : Char) : Prop := d = ';' → c = '\\'

/-- Every semicolon stands behind a backslash. -/
def Guarded (s : List Char) : Prop := (' ' :: s).IsChain MayFollow

theorem isChain_cons_iff : (c :: s).IsChain MayFollow ↔
    (s.head? = some ';' → c = '\\') ∧ s.IsChain MayFollow := by
  rw [List.isChain_cons]
  refine and_congr_left fun _ ↦ ⟨fun h hs ↦ h ';' hs rfl, ?_⟩
  rintro h _ hd rfl
  exact h hd

theorem guarded_iff : Guarded s ↔ s.head? ≠ some ';' ∧ s.IsChain MayFollow := by
  rw [Guarded, isChain_cons_iff]
  exact and_congr_left fun _ ↦ imp_congr_right fun _ ↦ iff_of_false (by decide) id

theorem guarded_of_isChain (h : (c :: s).IsChain MayFollow) (hc : c ≠ '\\') : Guarded s :=
  have h := isChain_cons_iff.1 h
  guarded_iff.2 ⟨fun hs ↦ hc (h.1 hs), h.2⟩

/-- A text without semicolons, behind any character. -/
theorem isChain_of_notMem (h : ';' ∉ s) : (c :: s).IsChain MayFollow := by
  induction s generalizing c with
  | nil => exact List.isChain_singleton c
  | cons d s ih =>
    rw [List.mem_cons, not_or] at h
    rw [List.isChain_cons_cons]
    exact ⟨fun hd ↦ absurd hd.symm h.1, ih h.2⟩

theorem guarded_of_notMem (h : ';' ∉ s) : Guarded s := isChain_of_notMem h

/-- What is guarded may stand behind any text. -/
theorem isChain_append (h : s.IsChain MayFollow) (ht : Guarded t) :
    (s ++ t).IsChain MayFollow := by
  obtain ⟨hhead, hchain⟩ := guarded_iff.1 ht
  refine List.isChain_append.2 ⟨h, hchain, ?_⟩
  rintro _ - _ hd rfl
  exact absurd hd hhead

theorem Guarded.append (hs : Guarded s) (ht : Guarded t) : Guarded (s ++ t) := isChain_append hs ht

/-! ## Lines -/

/-- Indentation guards what it is put in front of. -/
theorem isChain_prefixRest (hp : ';' ∉ p) (h : (c :: s).IsChain MayFollow) :
    (c :: prefixRest p s).IsChain MayFollow := by
  induction s generalizing c with
  | nil => exact h
  | cons d s ih =>
    obtain ⟨hcd, hs⟩ := List.isChain_cons_cons.1 h
    have hrest := ih hs
    rw [prefixRest]
    split
    case isTrue hd =>
      obtain rfl : d = '\n' := hd.1
      have hline : (c :: '\n' :: p).IsChain MayFollow :=
        List.isChain_cons_cons.2 ⟨hcd, isChain_of_notMem hp⟩
      exact isChain_append hline (guarded_of_isChain hrest (by decide))
    case isFalse => exact List.isChain_cons_cons.2 ⟨hcd, hrest⟩

theorem Guarded.prefixLines (hp : ';' ∉ p) (h : Guarded s) : Guarded (prefixLines p s) :=
  (guarded_of_notMem hp).append (isChain_prefixRest hp h)

/-- The first line of a text stands where the text does, and the others behind a newline. -/
theorem isChain_of_splitLines {lines : List (List Char)} (h : (c :: s).IsChain MayFollow)
    (hs : splitLines s = l :: lines) :
    (c :: l).IsChain MayFollow ∧ ∀ l' ∈ lines, Guarded l' := by
  induction s generalizing c l lines with
  | nil =>
    cases hs
    exact ⟨h, nofun⟩
  | cons d s ih =>
    obtain ⟨hcd, hd⟩ := List.isChain_cons_cons.1 h
    obtain ⟨first, rest, hrest⟩ := List.exists_cons_of_ne_nil (splitLines_ne_nil s)
    obtain ⟨hfirst, hothers⟩ := ih hd hrest
    rw [splitLines, hrest] at hs
    split at hs
    case isTrue hnewline =>
      cases hs
      refine ⟨List.isChain_singleton c, List.forall_mem_cons.2 ⟨?_, hothers⟩⟩
      exact guarded_of_isChain hfirst (by rw [hnewline]; decide)
    case isFalse =>
      cases hs
      exact ⟨List.isChain_cons_cons.2 ⟨hcd, hfirst⟩, hothers⟩

theorem Guarded.of_mem_splitLines (h : Guarded s) (hl : l ∈ splitLines s) : Guarded l := by
  obtain ⟨first, rest, hs⟩ := List.exists_cons_of_ne_nil (splitLines_ne_nil s)
  obtain ⟨hfirst, hrest⟩ := isChain_of_splitLines h hs
  rw [hs] at hl
  rcases List.mem_cons.1 hl with rfl | hl
  · exact hfirst
  · exact hrest l hl

/-- Whether a line, apart from its indentation, is a comment. -/
def isComment (l : List Char) : Bool := (l.dropWhile isGap).head? == some ';'

theorem Guarded.isComment (h : Guarded l) : isComment l = false := by
  rw [Text.isComment, beq_eq_false_iff_ne]
  intro hhead
  -- The semicolon stands behind the indentation, and this stands behind a space.
  have hchain : ((' ' :: l.takeWhile isGap) ++ l.dropWhile isGap).IsChain MayFollow := by
    rwa [List.cons_append, List.takeWhile_append_dropWhile]
  have hlast := List.getLast?_eq_some_getLast (List.cons_ne_nil ' ' (l.takeWhile isGap))
  have hgap : ∀ last ∈ ' ' :: l.takeWhile isGap, isGap last := by
    rw [List.forall_mem_cons]
    exact ⟨rfl, fun _ ↦ List.mem_takeWhile_imp⟩
  have hguard := (List.isChain_append.1 hchain).2.2 _ hlast ';' hhead rfl
  exact absurd (hgap _ (List.mem_of_getLast? (hguard ▸ hlast))) (by decide)

end Turtle.Text

/-! ## Word literals -/

namespace Turtle.Logo.Word

open Text (Guarded guarded_of_notMem)

theorem guarded_escape (s : List Char) : Guarded (escape s) := by
  induction s with
  | nil => exact guarded_of_notMem List.not_mem_nil
  | cons c s ih =>
    rw [escape]
    split
    · have hescaped : Guarded ['\\', c] :=
        List.isChain_cons_cons.2 ⟨fun h ↦ absurd h (by decide), List.isChain_cons_cons.2
          ⟨fun _ ↦ rfl, List.isChain_singleton c⟩⟩
      exact hescaped.append ih
    case isFalse h =>
      have hc : ';' ≠ c := by
        rintro rfl
        exact h rfl
      exact (guarded_of_notMem (by simpa using hc) : Guarded [c]).append ih

theorem guarded_quote (s : List Char) : Guarded (quote s) :=
  (guarded_of_notMem (by decide) : Guarded ['"']).append (guarded_escape s)

theorem guarded_quoteLines (s : List Char) : Guarded (quoteLines s) := by
  rw [quoteLines]
  induction Text.splitLines s with
  | nil => exact guarded_of_notMem List.not_mem_nil
  | cons l ls ih =>
    cases ls with
    | nil =>
      rw [List.map_singleton, List.intercalate_singleton]
      exact guarded_quote l
    | cons l' ls =>
      rw [List.map_cons] at ih
      rw [List.map_cons, List.map_cons, List.intercalate_cons_cons]
      exact ((guarded_quote l).append (guarded_of_notMem (by decide))).append ih

end Turtle.Logo.Word

/-! ## Texts -/

namespace Turtle

/-- A text in which every semicolon stands behind a backslash. -/
def Guarded (s : String) : Prop := Text.Guarded s.toList

variable {s t p : String}

theorem guarded_of_notMem (h : ';' ∉ s.toList) : Guarded s := Text.guarded_of_notMem h

namespace Guarded

theorem append (hs : Guarded s) (ht : Guarded t) : Guarded (s ++ t) := by
  rw [Guarded, String.toList_append]
  exact Text.Guarded.append hs ht

theorem texture : Texture Guarded := ⟨guarded_of_notMem (by decide), append⟩

theorem prefixLines (hp : ';' ∉ p.toList) (h : Guarded s) : Guarded (prefixLines p s) := by
  rw [Guarded, Turtle.prefixLines, String.toList_ofList]
  exact Text.Guarded.prefixLines hp h

theorem quote (s : String) : Guarded (Logo.quote s) := by
  rw [Guarded, Logo.quote, String.toList_ofList]
  exact Logo.Word.guarded_quote s.toList

theorem quoteLines (s : String) : Guarded (Logo.quoteLines s) := by
  rw [Guarded, Logo.quoteLines, String.toList_ofList]
  exact Logo.Word.guarded_quoteLines s.toList

theorem lower (h : ';' ∉ s.toList) : Guarded (lower s) := by
  refine guarded_of_notMem fun hmem ↦ h ?_
  rw [Turtle.lower, String.toList_ofList] at hmem
  exact Text.mem_of_mem_lowerFrom (by decide) hmem

theorem of_isCharacter (h : ∀ c ∈ s.toList, Number.isCharacter c) : Guarded s :=
  guarded_of_notMem fun hmem ↦ absurd (h ';' hmem) (by decide)

theorem of_isIdentifier (h : isIdentifier s) : Guarded s :=
  guarded_of_notMem fun hmem ↦ absurd (Identifier.isLegalChar_of_mem h hmem) (by decide)

end Guarded

end Turtle

import Turtle.Text.Blank

/-!
# The words of a text

The words of a text are its maximal runs of characters that are not blank.  A text determines its
words, and they are the ones that the text is split into.
-/

namespace Turtle.Text

variable {s w : List Char} {ws : List (List Char)}

/-- A text of one word. -/
structure IsWord (w : List Char) : Prop where
  ne_nil : w ≠ []
  solid : ∀ c ∈ w, ¬ isBlank c

/-- The text consists of these words, with blanks before and behind them.  Behind a word there is a
blank, or else the text ends. -/
inductive HasWords : List Char → List (List Char) → Prop
  | blank {s : List Char} (h : ∀ c ∈ s, isBlank c) : HasWords s []
  | word (gap : List Char) {w rest : List Char} {ws : List (List Char)}
    (hgap : ∀ c ∈ gap, isBlank c) (hword : IsWord w) (hend : ∀ c ∈ rest.head?, isBlank c)
    (hrest : HasWords rest ws) : HasWords (gap ++ w ++ rest) (w :: ws)

/-! ## Splitting -/

theorem wordsFrom_solid (hs : ∀ c ∈ s, ¬ isBlank c) (word t : List Char) :
    wordsFrom word (s ++ t) = wordsFrom (s.reverse ++ word) t := by
  induction s generalizing word with
  | nil => rfl
  | cons c s ih =>
    obtain ⟨hc, hs⟩ := List.forall_mem_cons.1 hs
    rw [List.cons_append, wordsFrom, if_neg hc, ih hs, List.reverse_cons, List.append_assoc]
    rfl

theorem words_blank (hs : ∀ c ∈ s, isBlank c) (t : List Char) : words (s ++ t) = words t := by
  induction s with
  | nil => rfl
  | cons c s ih =>
    obtain ⟨hc, hs⟩ := List.forall_mem_cons.1 hs
    rw [← ih hs, words, List.cons_append, wordsFrom, if_pos hc, if_pos List.isEmpty_nil]
    rfl

theorem words_of_blank (hs : ∀ c ∈ s, isBlank c) : words s = [] := by
  have h := words_blank hs []
  rwa [List.append_nil] at h

/-- A word ends in front of a blank, or with the text. -/
theorem words_word (hw : IsWord w) {rest : List Char} (hrest : ∀ c ∈ rest.head?, isBlank c) :
    words (w ++ rest) = w :: words rest := by
  have hne : ¬ w.reverse.isEmpty := by simpa using hw.ne_nil
  rw [words, wordsFrom_solid hw.solid, List.append_nil]
  cases rest with
  | nil => rw [wordsFrom, if_neg hne, List.reverse_reverse]; rfl
  | cons c rest =>
    have hc := hrest c rfl
    rw [wordsFrom, if_pos hc, if_neg hne, List.reverse_reverse, words, wordsFrom, if_pos hc,
      if_pos List.isEmpty_nil]

/-! ## Words and texts -/

theorem HasWords.cons_blank {c : Char} (hc : isBlank c) (h : HasWords s ws) :
    HasWords (c :: s) ws := by
  cases h with
  | blank hs => exact .blank (List.forall_mem_cons.2 ⟨hc, hs⟩)
  | word gap hgap hword hend hrest =>
    exact .word (c :: gap) (List.forall_mem_cons.2 ⟨hc, hgap⟩) hword hend hrest

/-- By induction on the text, for the run that is being read as well: what is split off are the
words of the run and the text behind it. -/
theorem hasWords_wordsFrom (word : List Char) (hword : ∀ c ∈ word, ¬ isBlank c) :
    HasWords (word.reverse ++ s) (wordsFrom word s) := by
  have hrun {word : List Char} (hsolid : ∀ c ∈ word, ¬ isBlank c) (hne : ¬ word.isEmpty) :
      IsWord word.reverse := ⟨by simpa using hne, by simpa using hsolid⟩
  induction s generalizing word with
  | nil =>
    rw [wordsFrom]
    split
    case isTrue hempty =>
      rw [List.isEmpty_iff.1 hempty]
      exact .blank nofun
    case isFalse hne => exact .word [] nofun (hrun hword hne) nofun (.blank nofun)
  | cons c s ih =>
    rw [wordsFrom]
    split
    case isTrue hc =>
      have hrest : HasWords (c :: s) (wordsFrom [] s) := (ih [] nofun).cons_blank hc
      split
      case isTrue hempty =>
        rw [List.isEmpty_iff.1 hempty]
        exact hrest
      case isFalse hne =>
        refine .word [] nofun (hrun hword hne) ?_ hrest
        rintro d ⟨rfl⟩
        exact hc
    case isFalse hc =>
      have hmore := ih (c :: word) (List.forall_mem_cons.2 ⟨hc, hword⟩)
      rwa [List.reverse_cons, List.append_assoc] at hmore

/-- The words of a text are the ones it is split into, and no others. -/
theorem hasWords_iff : HasWords s ws ↔ words s = ws := by
  constructor
  · intro h
    induction h with
    | blank hs => exact words_of_blank hs
    | word gap hgap hword hend _ ih =>
    rw [List.append_assoc, words_blank hgap, words_word hword hend, ih]
  · rintro rfl
    exact hasWords_wordsFrom [] nofun

theorem HasWords.isWord (h : HasWords s ws) : ∀ w ∈ ws, IsWord w := by
  induction h with
  | blank => exact nofun
  | word _ _ hword _ _ ih => exact List.forall_mem_cons.2 ⟨hword, ih⟩

/-- Words with one space between each two. -/
def spaced (ws : List (List Char)) : List Char := [' '].intercalate ws

theorem spaced_singleton (w : List Char) : spaced [w] = w := List.intercalate_singleton

theorem spaced_cons_cons (w v : List Char) (ws : List (List Char)) :
    spaced (w :: v :: ws) = w ++ ' ' :: spaced (v :: ws) := by
  rw [spaced, List.intercalate_cons_cons, List.append_assoc]
  rfl

theorem spaced_append {vs : List (List Char)} (hws : ws ≠ []) (hvs : vs ≠ []) :
    spaced (ws ++ vs) = spaced ws ++ ' ' :: spaced vs := by
  obtain ⟨v, vs, rfl⟩ := List.exists_cons_of_ne_nil hvs
  induction ws with
  | nil => exact absurd rfl hws
  | cons w ws ih =>
    cases ws with
    | nil => rw [List.singleton_append, spaced_cons_cons, spaced_singleton]
    | cons w' ws =>
      have hrest := ih (List.cons_ne_nil w' ws)
      rw [List.cons_append] at hrest
      rw [List.cons_append, List.cons_append, spaced_cons_cons, hrest, spaced_cons_cons,
        List.append_assoc]
      rfl

/-- Words are read back from the text that has them with a space between each two. -/
theorem hasWords_spaced (h : ∀ w ∈ ws, IsWord w) : HasWords (spaced ws) ws := by
  induction ws with
  | nil => exact .blank nofun
  | cons w ws ih =>
    obtain ⟨hw, hws⟩ := List.forall_mem_cons.1 h
    cases ws with
    | nil =>
      rw [spaced_singleton]
      have hword : HasWords ([] ++ w ++ []) [w] := .word [] nofun hw nofun (.blank nofun)
      rwa [List.nil_append, List.append_nil] at hword
    | cons v ws =>
      rw [spaced_cons_cons]
      refine .word [] nofun hw ?_ ((ih hws).cons_blank isBlank_space)
      rintro c ⟨rfl⟩
      exact isBlank_space

theorem newline_notMem_spaced (h : ∀ w ∈ ws, IsWord w) : '\n' ∉ spaced ws := by
  have hword : ∀ w ∈ ws, '\n' ∉ w := fun w hw hmem ↦ (h w hw).solid '\n' hmem isBlank_newline
  induction ws with
  | nil => exact List.not_mem_nil
  | cons w ws ih =>
    obtain ⟨hw, hws⟩ := List.forall_mem_cons.1 hword
    cases ws with
    | nil => rwa [spaced_singleton]
    | cons v ws =>
      have hrest := ih (List.forall_mem_cons.1 h).2 hws
      rw [spaced_cons_cons]
      simp [hw, hrest]

end Turtle.Text

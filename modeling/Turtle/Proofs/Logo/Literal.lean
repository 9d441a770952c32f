import Turtle.Proofs.Logo.Word
import Turtle.Proofs.Text.Lines

/-!
# Literals among other text

A reader goes through a program character by character and passes over every backslash together with
the character after it.  So it meets a delimiter behind a literal, but none within, and finds out by
itself where the literal ends.  The lines of a text that is quoted line by line are cut where the
literal has its newlines.
-/

namespace Turtle.Logo.Word

open Text (splitLines)

/-! ## Scanning -/

/-- Read up to a character that stops, passing over every backslash with the character after it:
what is read, and what is left. -/
def scan (stop : Char → Bool) : List Char → List Char × List Char
  | [] => ([], [])
  | '\\' :: c :: s => (scan stop s).map ('\\' :: c :: ·) id
  | c :: s => if stop c then ([], c :: s) else (scan stop s).map (c :: ·) id

section Scan

variable {stop : Char → Bool}

theorem scan_backslash (c : Char) (s : List Char) :
    scan stop ('\\' :: c :: s) = (scan stop s).map ('\\' :: c :: ·) id := by rw [scan]

theorem scan_stop {c : Char} (hne : c ≠ '\\') (hc : stop c) (s : List Char) :
    scan stop (c :: s) = ([], c :: s) := by
  rw [scan, if_pos hc]
  rintro - - rfl
  exact absurd rfl hne

theorem scan_pass {c : Char} (hne : c ≠ '\\') (hc : ¬ stop c) (s : List Char) :
    scan stop (c :: s) = (scan stop s).map (c :: ·) id := by
  rw [scan, if_neg hc]
  rintro - - rfl
  exact absurd rfl hne

/-- Scanning splits a text in two. -/
theorem scan_append (s : List Char) : (scan stop s).1 ++ (scan stop s).2 = s := by
  fun_induction scan stop s with
  | case1 => rfl
  | case2 c s ih => exact congrArg ('\\' :: c :: ·) ih
  | case3 => rfl
  | case4 c s _ _ ih => exact congrArg (c :: ·) ih

/-- A word is scanned to its end if all characters of it that stop are escaped. -/
theorem scan_escape {s rest : List Char} (hs : ∀ c ∈ s, stop c → isDelimiter c)
    (hrest : ∀ c ∈ rest.head?, c ≠ '\\' ∧ stop c) :
    scan stop (escape s ++ rest) = (escape s, rest) := by
  induction s with
  | nil =>
    cases rest with
    | nil => rfl
    | cons c rest => exact scan_stop (hrest c rfl).1 (hrest c rfl).2 rest
  | cons c s ih =>
    have htail := ih fun d hd ↦ hs d (List.mem_cons_of_mem c hd)
    rw [escape]
    split
    case isTrue => rw [List.cons_append, List.cons_append, scan_backslash, htail]; rfl
    case isFalse hc =>
      have hne : c ≠ '\\' := by
        rintro rfl
        exact hc rfl
      rw [List.cons_append, scan_pass hne (mt (hs c List.mem_cons_self) hc), htail]
      rfl

/-- A literal is scanned to its end. -/
theorem scan_quote {s rest : List Char} (hquote : ¬ stop '"')
    (hs : ∀ c ∈ s, stop c → isDelimiter c) (hrest : ∀ c ∈ rest.head?, c ≠ '\\' ∧ stop c) :
    scan stop (quote s ++ rest) = (quote s, rest) := by
  rw [quote, List.cons_append, scan_pass (by decide) hquote, scan_escape hs hrest]
  rfl

end Scan

/-- A character that ends a word, unless there is a backslash before it. -/
def endsWord (c : Char) : Bool := c == ' ' || c == '\n' || c == ';' || c == '|' || c == '~'

/-- The delimiters are the backslash and the characters that end a word. -/
theorem isDelimiter_iff {c : Char} : isDelimiter c ↔ c = '\\' ∨ endsWord c := by
  simp only [isDelimiter, endsWord, Bool.or_eq_true, beq_iff_eq]
  tauto

/-- The reader stops right behind a literal. -/
theorem scan_literal (s : List Char) {rest : List Char} (hrest : ∀ c ∈ rest.head?, endsWord c) :
    scan endsWord (quote s ++ rest) = (quote s, rest) := by
  refine scan_quote (by decide) (fun c _ hc ↦ isDelimiter_iff.2 (.inr hc)) fun c hc ↦ ⟨?_, hrest c hc⟩
  rintro rfl
  exact absurd (hrest '\\' hc) (by decide)

/-! ## Texts of several lines -/

/-- A line without the backslash at its end. -/
def dropJoint (line : List Char) : List Char :=
  if line.getLast? = some '\\' then line.dropLast else line

/-- Lines that are continued, all but the last one without the backslash at the end. -/
def dropJoints : List (List Char) → List (List Char)
  | [] => []
  | [line] => [line]
  | line :: rest => dropJoint line :: dropJoints rest

theorem dropJoint_concat (line : List Char) : dropJoint (line ++ ['\\']) = line := by
  rw [dropJoint, if_pos List.getLast?_concat, List.dropLast_concat]

/-- A continued literal is cut at its joints. -/
theorem dropJoints_splitLines_intercalate {ls : List (List Char)} (hne : ls ≠ [])
    (h : ∀ l ∈ ls, '\n' ∉ l) : dropJoints (splitLines (['\\', '\n'].intercalate ls)) = ls := by
  induction ls with
  | nil => exact absurd rfl hne
  | cons l ls ih =>
    have hl : '\n' ∉ l := h l List.mem_cons_self
    cases ls with
    | nil =>
      obtain ⟨line, rest, hempty, heq⟩ := Text.splitLines_append hl []
      obtain ⟨rfl, rfl⟩ := List.cons.inj hempty
      rw [List.append_nil] at heq
      rw [List.intercalate_singleton, heq]
      rfl
    | cons l' ls =>
      have hrest := ih (List.cons_ne_nil l' ls) fun d hd ↦ h d (List.mem_cons_of_mem l hd)
      have hjoint : '\n' ∉ l ++ ['\\'] := by simp [hl]
      have hsplit := Text.splitLines_append_newline hjoint (['\\', '\n'].intercalate (l' :: ls))
      obtain ⟨line, lines, hlines⟩ := List.exists_cons_of_ne_nil
        (Text.splitLines_ne_nil (['\\', '\n'].intercalate (l' :: ls)))
      rw [List.append_assoc] at hsplit
      rw [hlines] at hrest
      rw [List.intercalate_cons_cons, List.append_assoc]
      refine (congrArg dropJoints (hsplit.trans (congrArg _ hlines))).trans ?_
      rw [dropJoints, dropJoint_concat, hrest]
      exact List.cons_ne_nil line lines

/-- The literals of the lines are the lines of the literal. -/
theorem dropJoints_splitLines_quoteLines (s : List Char) :
    dropJoints (splitLines (quoteLines s)) = (splitLines s).map quote := by
  refine dropJoints_splitLines_intercalate (by simpa using Text.splitLines_ne_nil s) fun l hl ↦ ?_
  obtain ⟨line, hline, rfl⟩ := List.mem_map.1 hl
  exact newline_notMem_quote (Text.notMem_of_mem_splitLines hline)

/-- Every line is read back from its literal. -/
theorem map_unquote_dropJoints (s : List Char) :
    (dropJoints (splitLines (quoteLines s))).map unquote = splitLines s := by
  have hunquote : unquote ∘ quote = id := funext unquote_quote
  rw [dropJoints_splitLines_quoteLines, List.map_map, hunquote, List.map_id]

theorem quoteLines_injective : Function.Injective quoteLines := by
  intro s t h
  have hlines := map_unquote_dropJoints s
  rw [h, map_unquote_dropJoints t] at hlines
  rw [← Text.joinLines_splitLines s, ← hlines, Text.joinLines_splitLines]

end Word

/-- The literal for a text is read back as the text, and whatever ends a word may follow it: the
first delimiter without a backslash is the one right behind the literal.  The literal for several
lines is cut into the literals of its lines, so no two texts have the same one. -/
theorem literal_reads_back (t : String) :
    unquote (quote t) = t ∧
      (∀ rest : String, (∀ c ∈ rest.toList.head?, Word.endsWord c) →
        Word.scan Word.endsWord (quote t ++ rest).toList = ((quote t).toList, rest.toList)) ∧
      (Word.dropJoints (Text.splitLines (quoteLines t).toList)).map Word.unquote =
        Text.splitLines t.toList ∧
      ∀ t' : String, quoteLines t' = quoteLines t → t' = t := by
  refine ⟨?_, fun rest hrest ↦ ?_, ?_, fun t' h ↦ ?_⟩
  · rw [unquote, quote, String.toList_ofList, Word.unquote_quote, String.ofList_toList]
  · rw [String.toList_append, quote, String.toList_ofList, Word.scan_literal t.toList hrest]
  · rw [quoteLines, String.toList_ofList, Word.map_unquote_dropJoints]
  · rw [quoteLines, quoteLines, String.ofList_inj] at h
    exact String.toList_inj.1 (Word.quoteLines_injective h)

/-- A text with backslashes and delimiters, and a line that ends in a backslash. -/
theorem literal_reads_back_backslashes :
    (∀ c ∈ "; \\".toList.head?, Word.endsWord c) ∧
      Word.scan Word.endsWord (quote "a\\\n |\\" ++ "; \\").toList =
        ((quote "a\\\n |\\").toList, "; \\".toList) :=
  have hrest : ∀ c ∈ "; \\".toList.head?, Word.endsWord c := by
    rintro c ⟨⟩
    rfl
  ⟨hrest, (literal_reads_back "a\\\n |\\").2.1 "; \\" hrest⟩

end Turtle.Logo

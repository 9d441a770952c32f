import Turtle.Logo.Word
import Turtle.Proofs.Text.Tidy

/-!
# Quoted words at the end of a line

The literal for a text that ends in a space or a tab ends in a gap.  Tidying takes a backslash and
a space for a backslash and the end of the line, and nothing in a literal protects a tab.  So of
such a text all tabs at its end are lost, and one space before them.
-/

namespace Turtle.Logo.Word

open Text (isGap trimGap)

theorem escape_append (s t : List Char) : escape (s ++ t) = escape s ++ escape t := by
  induction s with
  | nil => rfl
  | cons c s ih =>
    simp only [List.cons_append, escape, ih]
    split <;> rfl

/-- A literal ends as its text does. -/
theorem getLast?_escape (s : List Char) : (escape s).getLast? = s.getLast? := by
  cases s using List.reverseRecOn with
  | nil => rfl
  | append_singleton s c =>
    have hlast : (escape [c]).getLast? = some c := by
      rw [escape]
      split <;> rfl
    rw [escape_append, List.getLast?_append, List.getLast?_append, hlast]
    rfl

theorem newline_notMem_quote {s : List Char} (h : '\n' ∉ s) : '\n' ∉ quote s := by
  have hescape : '\n' ∉ escape s := by
    induction s with
    | nil => exact List.not_mem_nil
    | cons c s ih =>
      have hc : '\n' ≠ c := List.ne_of_not_mem_cons h
      have hs : '\n' ∉ escape s := ih (List.not_mem_of_not_mem_cons h)
      rw [escape]
      split <;> simp [hc, hs]
  rw [quote, List.mem_cons]
  exact fun h ↦ h.elim (by decide) hescape

/-- An unfinished escape at the end of a word is passed over. -/
theorem unescape_concat_backslash (s : List Char) : unescape (escape s ++ ['\\']) = s := by
  induction s with
  | nil => rfl
  | cons c s ih =>
    rw [escape]
    split
    case isTrue => simp [unescape, ih]
    case isFalse h =>
      rw [List.cons_append, unescape_cons (by rintro rfl; exact h rfl), ih]

/-- What is left of a text when the gap at the end of its literal is dropped. -/
def kept (s : List Char) : List Char :=
  let t := s.rdropWhile (· == '\t')
  if t.getLast? = some ' ' then t.dropLast else t

theorem kept_concat_tab (s : List Char) : kept (s ++ ['\t']) = kept s := by
  simp only [kept, List.rdropWhile_concat_pos (· == '\t') s '\t' (by decide)]

theorem kept_concat_space (s : List Char) : kept (s ++ [' ']) = s := by
  simp [kept, List.rdropWhile_concat_neg (· == '\t') s ' ' (by decide)]

theorem kept_of_last {s : List Char} (h : ∀ c ∈ s.getLast?, ¬ isGap c) : kept s = s := by
  induction s using List.reverseRecOn with
  | nil => rfl
  | append_singleton s c _ =>
    have hc : ¬ isGap c := h c (by simp)
    simp only [isGap, Bool.or_eq_true, beq_iff_eq, not_or] at hc
    simp [kept, List.rdropWhile_concat_neg (· == '\t') s c (by simpa using hc.2), hc.1]

theorem length_kept_le (s : List Char) : (kept s).length ≤ s.length := by
  have hdrop := (List.rdropWhile_prefix (· == '\t') s).length_le
  simp only [kept]
  split
  · rw [List.length_dropLast]
    omega
  · exact hdrop

/-- A text is kept unless it ends in a space or a tab. -/
theorem kept_eq_self_iff {s : List Char} : kept s = s ↔ ∀ c ∈ s.getLast?, ¬ isGap c := by
  refine ⟨fun h c hc hgap ↦ ?_, kept_of_last⟩
  obtain ⟨t, rfl⟩ := List.getLast?_eq_some_iff.1 hc
  have hlength : (kept (t ++ [c])).length ≤ t.length := by
    simp only [isGap, Bool.or_eq_true, beq_iff_eq] at hgap
    rcases hgap with rfl | rfl
    · rw [kept_concat_space]
    · rw [kept_concat_tab]
      exact length_kept_le t
  rw [h, List.length_append, List.length_singleton] at hlength
  omega

theorem trimGap_quote (s : List Char) : trimGap (quote s) = '"' :: trimGap (escape s) :=
  Text.trimGap_append (l := ['"']) (by simp [isGap]) (escape s)

/-- What is read back from a literal without its gap. -/
theorem unquote_trimGap_quote (s : List Char) : unquote (trimGap (quote s)) = kept s := by
  rw [trimGap_quote]
  change unescape (trimGap (escape s)) = kept s
  -- from the end of the text, as gaps are dropped from there
  induction s using List.reverseRecOn with
  | nil => rfl
  | append_singleton s c ih =>
    rw [escape_append]
    by_cases hspace : c = ' '
    · subst hspace
      have hescape : escape s ++ escape [' '] = (escape s ++ ['\\']) ++ [' '] := by
        simp [escape, isDelimiter]
      have htrim : trimGap (escape s ++ ['\\']) = escape s ++ ['\\'] :=
        Text.trimGap_eq_self_iff.2 (by simp [isGap])
      rw [hescape, Text.trimGap_concat, if_pos (by decide), htrim, unescape_concat_backslash,
        kept_concat_space]
    · by_cases htab : c = '\t'
      · subst htab
        rw [show escape ['\t'] = ['\t'] from rfl, Text.trimGap_concat, if_pos (by decide), ih,
          kept_concat_tab]
      · have hlast : ∀ d ∈ (escape s ++ escape [c]).getLast?, ¬ isGap d := by
          rw [← escape_append, getLast?_escape]
          simp [isGap, hspace, htab]
        rw [Text.trimGap_eq_self_iff.2 hlast, ← escape_append, unescape_escape,
          kept_of_last (by simp [isGap, hspace, htab])]

/-- A literal is left alone if and only if the text does not end in a space or a tab. -/
theorem trimGap_quote_eq_self_iff {s : List Char} :
    trimGap (quote s) = quote s ↔ ∀ c ∈ s.getLast?, ¬ isGap c := by
  constructor
  · intro h
    rw [← kept_eq_self_iff, ← unquote_trimGap_quote, h, unquote_quote]
  · intro h
    have hescape : trimGap (escape s) = escape s :=
      Text.trimGap_eq_self_iff.2 (getLast?_escape s ▸ h)
    rw [trimGap_quote, hescape, quote]

end Turtle.Logo.Word

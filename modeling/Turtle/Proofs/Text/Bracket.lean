import Turtle.Compile.Pass
import Turtle.Proofs.Identifier.Legal
import Turtle.Proofs.Text.Case
import Turtle.Proofs.Text.Normal
import Turtle.Proofs.Text.Replace
import Turtle.Proofs.Text.Texture
import Turtle.Text.Tidy
import Turtle.Text.Wrap

/-!
# Brackets

Square brackets and parentheses are well nested if each closing one closes the one opened last, and
all are closed.  A text is balanced if it leaves the open brackets as they are, so texts that are
balanced may be put together.  Only the brackets of a text matter to this, and indenting, tidying and
replacing what has no brackets leave them as they are.
-/

namespace Turtle

namespace Text

/-- What is open after a character: the closing brackets that are awaited, the next one first.  There
is no way on for a closing bracket that is not the next one. -/
def bracketStep (awaited : List Char) (c : Char) : Option (List Char) :=
  if c = '[' then some (']' :: awaited)
  else if c = '(' then some (')' :: awaited)
  else if c = ']' ∨ c = ')' then
    match awaited with
    | next :: rest => if next = c then some rest else none
    | [] => none
  else some awaited

/-- What is open after a text. -/
def nest (awaited : List Char) : List Char → Option (List Char)
  | [] => some awaited
  | c :: s => (bracketStep awaited c).bind (nest · s)

/-- Whether a character is a bracket. -/
def isBracket (c : Char) : Bool := c == '[' || c == ']' || c == '(' || c == ')'

/-- The brackets of a text. -/
def brackets (s : List Char) : List Char := s.filter isBracket

variable {s t p new : List Char}

attribute [simp] nest bracketStep

@[simp] theorem nest_append (awaited s t : List Char) :
    nest awaited (s ++ t) = (nest awaited s).bind (nest · t) := by
  induction s generalizing awaited with
  | nil => rfl
  | cons c s ih => simp only [List.cons_append, nest, ih, Option.bind_assoc]

/-- What was open before and is not closed stays open. -/
theorem bracketStep_frame {awaited awaited' : List Char} {c : Char}
    (h : bracketStep awaited c = some awaited') (below : List Char) :
    bracketStep (awaited ++ below) c = some (awaited' ++ below) := by
  unfold bracketStep at h ⊢
  split at h
  · cases h
    rw [if_pos ‹_›, List.cons_append]
  · rw [if_neg ‹_›]
    split at h
    · cases h
      rw [if_pos ‹_›, List.cons_append]
    · rw [if_neg ‹_›]
      split at h
      · rw [if_pos ‹_›]
        cases awaited with
        | nil => cases h
        | cons next rest =>
          rw [List.cons_append]
          simp only at h ⊢
          split at h
          · cases h
            rw [if_pos ‹_›]
          · cases h
      · rw [if_neg ‹_›]
        cases h
        rfl

theorem nest_frame {awaited awaited' : List Char} (h : nest awaited s = some awaited')
    (below : List Char) : nest (awaited ++ below) s = some (awaited' ++ below) := by
  induction s generalizing awaited with
  | nil =>
    cases h
    rfl
  | cons c s ih =>
    obtain ⟨next, hstep, hrest⟩ := Option.bind_eq_some_iff.1 h
    rw [nest, bracketStep_frame hstep, Option.bind_some, ih hrest]

/-- A text that is given by its characters need not be taken apart. -/
theorem nest_ofList {awaited awaited' : List Char} (h : nest awaited s = some awaited') :
    nest awaited (String.ofList s).toList = some awaited' := by
  rwa [String.toList_ofList]

/-- What is open after some lines. -/
def nestLines (awaited : List Char) : List String → Option (List Char)
  | [] => some awaited
  | l :: ls => (nest awaited l.toList).bind (nestLines · ls)

theorem nest_intercalate (awaited : List Char) (ls : List String) :
    nest awaited ("\n".intercalate ls).toList = nestLines awaited ls := by
  induction ls generalizing awaited with
  | nil => rfl
  | cons l ls ih =>
    cases ls with
    | nil => simp [nestLines]
    | cons l' ls =>
      have hline (awaited : List Char) : nest awaited "\n".toList = some awaited := rfl
      rw [String.intercalate_cons_cons, String.toList_append, String.toList_append, nest_append,
        nest_append, nestLines, Option.bind_assoc]
      refine congrArg _ (funext fun awaited' ↦ ?_)
      rw [hline, Option.bind_some, ih]

theorem nestLines_cons {awaited next final l : List Char} {ls : List String}
    (h : nest awaited l = some next) (hrest : nestLines next ls = some final) :
    nestLines awaited (String.ofList l :: ls) = some final := by
  rw [nestLines, nest_ofList h, Option.bind_some, hrest]

theorem bracketStep_of_not_isBracket {c : Char} (h : isBracket c = false) (awaited : List Char) :
    bracketStep awaited c = some awaited := by
  simp only [isBracket, Bool.or_eq_false_iff, beq_eq_false_iff_ne] at h
  obtain ⟨⟨⟨h₁, h₂⟩, h₃⟩, h₄⟩ := h
  simp [bracketStep, h₁, h₂, h₃, h₄]

/-- Only brackets count. -/
theorem nest_brackets (awaited s : List Char) : nest awaited (brackets s) = nest awaited s := by
  induction s generalizing awaited with
  | nil => rfl
  | cons c s ih =>
    cases hc : isBracket c with
    | true =>
      rw [brackets, List.filter_cons_of_pos hc]
      exact congrArg (Option.bind _) (funext ih)
    | false =>
      rw [brackets, List.filter_cons_of_neg (by simp [hc]), nest, bracketStep_of_not_isBracket hc]
      exact ih awaited

/-! ## What leaves the brackets as they are -/

@[simp] theorem brackets_append (s t : List Char) : brackets (s ++ t) = brackets s ++ brackets t :=
  List.filter_append ..

theorem brackets_cons_of_not {c : Char} (h : isBracket c = false) (s : List Char) :
    brackets (c :: s) = brackets s := List.filter_cons_of_neg (by simp [h])

@[simp] theorem brackets_newline (s : List Char) : brackets ('\n' :: s) = brackets s :=
  brackets_cons_of_not (by decide) s

theorem brackets_cons (c : Char) (s : List Char) : brackets (c :: s) = brackets [c] ++ brackets s :=
  brackets_append [c] s

theorem brackets_eq_nil_iff : brackets s = [] ↔ ∀ c ∈ s, isBracket c = false := by
  simp [brackets, List.filter_eq_nil_iff]

theorem brackets_prefixLines (hp : brackets p = []) (s : List Char) :
    brackets (prefixLines p s) = brackets s := by
  rw [prefixLines, brackets_append, hp, List.nil_append]
  induction s with
  | nil => rfl
  | cons c s ih =>
    rw [prefixRest]
    split
    · rename_i h
      rw [h.1, brackets_append, brackets_newline, brackets_newline, hp, List.nil_append, ih]
    · rw [brackets_cons, ih, ← brackets_cons]

theorem brackets_joinLines (ls : List (List Char)) :
    brackets (joinLines ls) = ls.flatMap brackets := by
  induction ls with
  | nil => rfl
  | cons l ls ih =>
    cases ls with
    | nil => simp [joinLines]
    | cons l' ls =>
      have hjoin : joinLines (l :: l' :: ls) = l ++ '\n' :: joinLines (l' :: ls) := rfl
      rw [hjoin, brackets_append, brackets_newline, ih, List.flatMap_cons (x := l)]

/-- Changing every line in a way that leaves its brackets as they are. -/
theorem brackets_mapLines {f : List Char → List Char} (h : ∀ l, brackets (f l) = brackets l)
    (s : List Char) : brackets (joinLines ((splitLines s).map f)) = brackets s := by
  rw [brackets_joinLines, List.flatMap_map, List.flatMap_congr fun l _ ↦ h l, ← brackets_joinLines,
    joinLines_splitLines]

theorem brackets_reindentLine {indent : List Char} (hindent : brackets indent = [])
    (l : List Char) : brackets (reindentLine indent l) = brackets l := by
  have hspaces : brackets (l.takeWhile (· == ' ')) = [] := by
    refine brackets_eq_nil_iff.2 fun c hc ↦ ?_
    obtain rfl : c = ' ' := by simpa using List.mem_takeWhile_imp hc
    rfl
  have hunits (n : Nat) : brackets (List.replicate n indent).flatten = [] := by
    refine brackets_eq_nil_iff.2 fun c hc ↦ ?_
    obtain ⟨unit, hunit, hc⟩ := List.mem_flatten.1 hc
    rw [(List.mem_replicate.1 hunit).2] at hc
    exact brackets_eq_nil_iff.1 hindent c hc
  have hrest (n : Nat) : brackets (List.replicate n ' ') = [] :=
    brackets_eq_nil_iff.2 fun c hc ↦ (List.mem_replicate.1 hc).2 ▸ rfl
  have hline := congrArg brackets (List.takeWhile_append_dropWhile (p := (· == ' ')) (l := l))
  rw [brackets_append, hspaces, List.nil_append] at hline
  simp only [reindentLine, brackets_append, hunits, hrest, hline, List.nil_append]

theorem brackets_replace {c : Char} {cs : List Char} (hphrase : brackets (c :: cs) = [])
    (hnew : brackets new = []) (s : List Char) : brackets (replace c cs new s) = brackets s := by
  induction s using replace.induct c cs with
  | case1 => rw [replace]
  | case2 d s hoccurs ih =>
    obtain ⟨rfl, hprefix⟩ := hoccurs
    obtain ⟨t, rfl⟩ := List.isPrefixOf_iff_prefix.1 hprefix
    rw [List.drop_left] at ih
    rw [← List.cons_append, replace_phrase, brackets_append, hnew, ih, List.nil_append,
      brackets_append, hphrase, List.nil_append]
  | case3 d s hoccurs ih => rw [replace, if_neg hoccurs, brackets_cons, ih, ← brackets_cons]

/-! ## Tidying -/

theorem isBracket_of_isBlank {c : Char} (h : isBlank c) : isBracket c = false := by
  rw [Bool.eq_false_iff]
  simp only [isBracket, ne_eq, Bool.or_eq_true, beq_iff_eq]
  rintro (((rfl | rfl) | rfl) | rfl) <;> revert h <;> decide

/-- Deleting blanks deletes no bracket. -/
theorem brackets_thinned {t : List Char} (h : Thinned s t) : brackets t = brackets s := by
  induction h with
  | nil => rfl
  | keep c _ ih => rw [brackets_cons, ih, ← brackets_cons]
  | delete hc _ ih => rw [brackets_cons_of_not (isBracket_of_isBlank hc), ih]

theorem brackets_tidy (s : List Char) : brackets (tidy s) = brackets s :=
  brackets_thinned (thinned_tidy s)

/-! ## Wrapping -/

theorem mem_of_mem_wordsFrom {word l : List Char} (hl : l ∈ wordsFrom word s) {c : Char}
    (hc : c ∈ l) : c ∈ word ∨ c ∈ s := by
  induction s generalizing word with
  | nil =>
    rw [wordsFrom] at hl
    split at hl
    · cases hl
    · rw [List.mem_singleton.1 hl, List.mem_reverse] at hc
      exact .inl hc
  | cons d s ih =>
    have hrest (word : List Char) (hl : l ∈ wordsFrom word s) (hword : c ∈ word → c ∈ [d]) :
        c ∈ d :: s := by
      rcases ih hl with hc | hc
      · exact List.mem_cons.2 (.inl (List.mem_singleton.1 (hword hc)))
      · exact List.mem_cons_of_mem d hc
    rw [wordsFrom] at hl
    split at hl
    · split at hl
      · exact .inr (hrest [] hl nofun)
      · rcases List.mem_cons.1 hl with rfl | hl
        · exact .inl (List.mem_reverse.1 hc)
        · exact .inr (hrest [] hl nofun)
    · rcases ih hl with hc | hc
      · rcases List.mem_cons.1 hc with rfl | hc
        · exact .inr List.mem_cons_self
        · exact .inl hc
      · exact .inr (List.mem_cons_of_mem d hc)

theorem brackets_words (hs : brackets s = []) : ∀ word ∈ words s, brackets word = [] := by
  intro word hword
  refine brackets_eq_nil_iff.2 fun c hc ↦ ?_
  exact brackets_eq_nil_iff.1 hs c ((mem_of_mem_wordsFrom hword hc).resolve_left nofun)

theorem brackets_fillFrom (limit : Nat) {line : List Char} {ws : List (List Char)}
    (hline : brackets line = []) (hws : ∀ word ∈ ws, brackets word = []) :
    ∀ l ∈ fillFrom limit line ws, brackets l = [] := by
  induction ws generalizing line with
  | nil => exact List.forall_mem_singleton.2 hline
  | cons word ws ih =>
    obtain ⟨hword, hws⟩ := List.forall_mem_cons.1 hws
    rw [fillFrom]
    split
    · refine ih ?_ hws
      rw [brackets_append, hline, brackets_cons_of_not (by decide), hword, List.nil_append]
    · exact List.forall_mem_cons.2 ⟨hline, ih hword hws⟩

/-- What is wrapped has no brackets if the text has none. -/
theorem brackets_wrap (limit : Nat) (hs : brackets s = []) : brackets (wrap limit s) = [] := by
  have hlines : (splitLines s).flatMap brackets = [] := by
    rw [← brackets_joinLines, joinLines_splitLines, hs]
  rw [wrap, brackets_joinLines, List.flatMap_map, List.flatMap_eq_nil_iff]
  intro l hl
  have hl := brackets_words (List.flatMap_eq_nil_iff.1 hlines l hl)
  rw [wrapParagraph, brackets_joinLines, List.flatMap_eq_nil_iff]
  cases hwords : words l with
  | nil => exact List.forall_mem_singleton.2 rfl
  | cons word ws =>
    rw [hwords] at hl
    obtain ⟨hword, hws⟩ := List.forall_mem_cons.1 hl
    exact brackets_fillFrom limit hword hws

/-! ## Lower case -/

theorem toNat_of_isBracket {c : Char} (h : isBracket c) : c.toNat ∈ markCodes := by
  simp only [isBracket, Bool.or_eq_true, beq_iff_eq] at h
  rcases h with ((rfl | rfl) | rfl) | rfl <;> decide

/-- What is in lower case has no brackets if the text has none. -/
theorem brackets_lowerFrom (before : List Char) (hs : brackets s = []) :
    brackets (lowerFrom before s) = [] := by
  refine brackets_eq_nil_iff.2 fun c hc ↦ Bool.eq_false_iff.2 fun hbracket ↦ ?_
  have hmem := mem_of_mem_lowerFrom (toNat_of_isBracket hbracket) hc
  rw [brackets_eq_nil_iff.1 hs c hmem] at hbracket
  cases hbracket

end Text

/-! ## Texts -/

/-- A text in which every closing bracket closes the one opened last, and all are closed. -/
def WellNested (s : String) : Prop := Text.nest [] s.toList = some []

instance (s : String) : Decidable (WellNested s) :=
  inferInstanceAs (Decidable (Text.nest [] s.toList = some []))

/-- A text that leaves the open brackets as they are. -/
def Balanced (s : String) : Prop := ∀ awaited, Text.nest awaited s.toList = some awaited

/-- A text without brackets. -/
def BracketFree (s : String) : Prop := Text.brackets s.toList = []

instance (s : String) : Decidable (BracketFree s) :=
  inferInstanceAs (Decidable (Text.brackets s.toList = []))

section

variable {s t p : String}

@[simp] theorem nest_of_balanced (h : Balanced s) (awaited : List Char) :
    Text.nest awaited s.toList = some awaited := h awaited

/-- A text is well nested exactly if it may stand inside any brackets. -/
theorem balanced_iff_wellNested : Balanced s ↔ WellNested s := by
  constructor
  · intro h
    exact h []
  · intro h awaited
    exact Text.nest_frame h awaited

theorem balanced_of_brackets_eq (h : Balanced s)
    (heq : Text.brackets t.toList = Text.brackets s.toList) : Balanced t := fun awaited ↦ by
  rw [← Text.nest_brackets, heq, Text.nest_brackets, h awaited]

theorem BracketFree.balanced (h : BracketFree s) : Balanced s := fun awaited ↦ by
  rw [← Text.nest_brackets, show Text.brackets s.toList = [] from h]
  rfl

theorem balanced_empty : Balanced "" := fun _ ↦ rfl

theorem Balanced.append (hs : Balanced s) (ht : Balanced t) : Balanced (s ++ t) := fun awaited ↦ by
  simp [hs, ht]

theorem balanced_ofList {l : List Char} (h : ∀ awaited, Text.nest awaited l = some awaited) :
    Balanced (String.ofList l) := fun awaited ↦ Text.nest_ofList (h awaited)

theorem balanced_texture : Texture Balanced := ⟨balanced_empty, fun hs ht ↦ hs.append ht⟩

theorem Balanced.parens (h : Balanced s) : Balanced ("(" ++ s ++ ")") := fun awaited ↦ by
  simp [h]

theorem Balanced.prefixLines (hp : BracketFree p) (h : Balanced s) :
    Balanced (prefixLines p s) := by
  refine balanced_of_brackets_eq h ?_
  rw [Turtle.prefixLines, String.toList_ofList]
  exact Text.brackets_prefixLines hp s.toList

theorem Balanced.tidy (h : Balanced s) : Balanced (tidy s) := by
  refine balanced_of_brackets_eq h ?_
  rw [Turtle.tidy, String.toList_ofList]
  exact Text.brackets_tidy s.toList

theorem Balanced.reindent (hp : BracketFree p) (h : Balanced s) : Balanced (reindent p s) := by
  refine balanced_of_brackets_eq h ?_
  rw [Turtle.reindent, String.toList_ofList]
  exact Text.brackets_mapLines (Text.brackets_reindentLine hp) s.toList

theorem brackets_replace {phrase new : String} (hphrase : BracketFree phrase)
    (hnew : BracketFree new) (s : String) :
    Text.brackets (replace phrase new s).toList = Text.brackets s.toList := by
  unfold BracketFree at hphrase
  rw [replace]
  split
  · rfl
  · rename_i c cs heq
    rw [heq] at hphrase
    rw [String.toList_ofList]
    exact Text.brackets_replace hphrase hnew s.toList

theorem Balanced.replace {phrase new : String} (hphrase : BracketFree phrase)
    (hnew : BracketFree new) (h : Balanced s) : Balanced (replace phrase new s) :=
  balanced_of_brackets_eq h (brackets_replace hphrase hnew s)

end

namespace BracketFree

variable {s t : String}

theorem append (hs : BracketFree s) (ht : BracketFree t) : BracketFree (s ++ t) := by
  have hs' : Text.brackets s.toList = [] := hs
  have ht' : Text.brackets t.toList = [] := ht
  rw [BracketFree, String.toList_append, Text.brackets_append, hs', ht', List.append_nil]

theorem of_forall (h : ∀ c ∈ s.toList, Text.isBracket c = false) : BracketFree s :=
  Text.brackets_eq_nil_iff.2 h

theorem lower (h : BracketFree s) : BracketFree (lower s) := by
  rw [BracketFree, Turtle.lower, String.toList_ofList]
  exact Text.brackets_lowerFrom [] h

theorem wrap (limit : Nat) (h : BracketFree s) : BracketFree (wrap limit s) := by
  rw [BracketFree, Turtle.wrap, String.toList_ofList]
  exact Text.brackets_wrap limit h

/-- Identifiers have no brackets. -/
theorem of_isIdentifier (h : isIdentifier s) : BracketFree s := by
  refine of_forall fun c hc ↦ ?_
  have hlegal := Identifier.isLegalChar_of_mem h hc
  rw [Bool.eq_false_iff]
  simp only [Text.isBracket, ne_eq, Bool.or_eq_true, beq_iff_eq]
  rintro (((rfl | rfl) | rfl) | rfl) <;> revert hlegal <;> decide

end BracketFree

end Turtle

import Turtle.Compile.Pass
import Turtle.Proofs.Compile.Remark
import Turtle.Proofs.Identifier.Legal
import Turtle.Proofs.Text.Replace

/-!
# Headings of definitions

A definition is a text that may begin with comments, lines after a semicolon, and then opens with a
line `to` and the name that it defines.  Neither the comments of a block, nor putting the name of a
helper into its lines, nor another unit of indentation hides that name.
-/

namespace Turtle

/-! ## Comments -/

/-- Lines after a semicolon, each ended by a newline. -/
inductive Text.Remarks : List Char → Prop
  | nil : Remarks []
  | line {line s : List Char} (hline : '\n' ∉ line) (h : Remarks s) :
    Remarks (';' :: line ++ '\n' :: s)

/-- What stands before a block are remarks. -/
theorem Block.remarks_comments (width : Nat) (b : Block) :
    Text.Remarks (b.comments width).toList := by
  have hlines : ∀ line ∈ b.commentLines width, '\n' ∉ line.toList :=
    fun _ ↦ notMem_of_mem_commentLines
  rw [comments_eq]
  generalize b.commentLines width = lines at hlines
  induction lines with
  | nil => exact .nil
  | cons line lines ih =>
    obtain ⟨hline, hrest⟩ := List.forall_mem_cons.1 hlines
    have hremark : '\n' ∉ ' ' :: line.toList := by simpa using hline
    simpa [remark, commentMark] using Text.Remarks.line hremark (ih hrest)

/-! ## Headings -/

/-- The name that a text defines, by its first line that is no comment. -/
def definedName? (s : String) : Option String :=
  match (Text.splitLines s.toList).find? (·.head? != some ';') with
  | some ('t' :: 'o' :: ' ' :: rest) => some (String.ofList (rest.takeWhile (· != ' ')))
  | _ => none

/-- The first word of a call. -/
def calledName (s : String) : String :=
  String.ofList (s.toList.takeWhile fun c ↦ c != ' ' && c != '\n')

/-- The text opens the definition of a name. -/
def Opens (name s : String) : Prop :=
  ∃ c rest, s.toList = "to ".toList ++ name.toList ++ c :: rest ∧ (c = ' ' ∨ c = '\n')

namespace Opens

variable {name s : String}

theorem append (h : Opens name s) (t : String) : Opens name (s ++ t) := by
  obtain ⟨c, rest, heq, hc⟩ := h
  refine ⟨c, rest ++ t.toList, ?_, hc⟩
  rw [String.toList_append, heq]
  simp

end Opens

theorem notMem_of_isIdentifier {name : String} (h : isIdentifier name) {c : Char}
    (hc : ¬ Identifier.isLegalChar c) : c ∉ name.toList :=
  fun hmem ↦ hc (Identifier.isLegalChar_of_mem h hmem)

theorem find?_splitLines_remarks {s : List Char} (h : Text.Remarks s) (t : List Char) :
    (Text.splitLines (s ++ t)).find? (·.head? != some ';') =
      (Text.splitLines t).find? (·.head? != some ';') := by
  induction h with
  | nil => rfl
  | @line line s hline _ ih =>
    have hremark : '\n' ∉ ';' :: line := by simpa using hline
    rw [List.append_assoc, List.cons_append (a := '\n'), Text.splitLines_append_newline hremark,
      List.find?_cons_of_neg (by simp), ih]

/-- The name that is defined after some remarks. -/
theorem definedName?_of_opens {name remarks s : String} (hname : isIdentifier name)
    (hremarks : Text.Remarks remarks.toList) (h : Opens name s) :
    definedName? (remarks ++ s) = some name := by
  obtain ⟨c, rest, heq, hc⟩ := h
  have hspace : ∀ d ∈ name.toList, (d != ' ') = true := fun d hd ↦ by
    rw [bne_iff_ne]
    rintro rfl
    exact notMem_of_isIdentifier hname (by decide) hd
  have hnewline : '\n' ∉ "to ".toList ++ name.toList := by
    rw [List.mem_append]
    rintro (hmem | hmem)
    · exact absurd hmem (by decide)
    · exact notMem_of_isIdentifier hname (by decide) hmem
  obtain ⟨line, others, hrest, hsplit⟩ := Text.splitLines_append hnewline (c :: rest)
  have htake : (name.toList ++ line).takeWhile (· != ' ') = name.toList := by
    rw [List.takeWhile_append_of_pos hspace]
    rcases hc with rfl | rfl
    · obtain ⟨line', others', -, hcons⟩ := Text.splitLines_append (s := [' ']) (by decide) rest
      rw [List.singleton_append, hrest] at hcons
      obtain ⟨rfl, -⟩ := List.cons.inj hcons
      simp
    · rw [Text.splitLines, if_pos rfl] at hrest
      obtain ⟨rfl, -⟩ := List.cons.inj hrest
      simp
  rw [definedName?, String.toList_append, find?_splitLines_remarks hremarks, heq, hsplit,
    List.find?_cons_of_pos (by simp)]
  change some (String.ofList ((name.toList ++ line).takeWhile (· != ' '))) = some name
  rw [htake, String.ofList_toList]

/-- The name that a call begins with. -/
theorem calledName_append {name rest : String} (hname : isIdentifier name)
    (hrest : ∀ c ∈ rest.toList.head?, c = ' ' ∨ c = '\n') : calledName (name ++ rest) = name := by
  have hlegal : ∀ c ∈ name.toList, (c != ' ' && c != '\n') = true := fun c hc ↦ by
    rw [Bool.and_eq_true, bne_iff_ne, bne_iff_ne]
    constructor
    · rintro rfl
      exact notMem_of_isIdentifier hname (by decide) hc
    · rintro rfl
      exact notMem_of_isIdentifier hname (by decide) hc
  rw [calledName, String.toList_append, List.takeWhile_append_of_pos hlegal]
  cases h : rest.toList with
  | nil => simp
  | cons c s =>
    rw [h] at hrest
    rcases hrest c rfl with rfl | rfl <;> simp

/-! ## Helpers -/

/-- The name of a helper is put into its first line. -/
theorem opens_replace (name rest : String) {c : Char} {s : List Char} (hs : rest.toList = c :: s)
    (hc : c = ' ' ∨ c = '\n') :
    Opens name (replace Pass.namePlaceholder name ("to " ++ Pass.namePlaceholder ++ rest)) := by
  obtain ⟨p, ps, hphrase, hto, hpc⟩ : ∃ p ps, Pass.namePlaceholder.toList = p :: ps ∧
      p ∉ "to ".toList ∧ p ≠ c := by
    refine ⟨_, _, rfl, by decide, ?_⟩
    rcases hc with rfl | rfl <;> decide
  refine ⟨c, Text.replace p ps name.toList s, ?_, hc⟩
  rw [replace, hphrase]
  simp only [String.toList_ofList, String.toList_append, hphrase, hs]
  rw [List.append_assoc, Text.replace_append hto, Text.replace_phrase, Text.replace,
    if_neg fun hand ↦ hpc hand.1.symm, List.append_assoc]

theorem Text.reindentLine_cons (indent : List Char) {c : Char} (hc : c ≠ ' ') (s : List Char) :
    reindentLine indent (c :: s) = c :: s := by
  simp [reindentLine, hc]

/-- A heading has no indentation to be changed. -/
theorem opens_reindent (indent : String) {name s : String} (hname : isIdentifier name)
    (h : Opens name s) : Opens name (reindent indent s) := by
  obtain ⟨c, rest, heq, hc⟩ := h
  have hnewline : '\n' ∉ "to ".toList ++ name.toList := by
    rw [List.mem_append]
    rintro (hmem | hmem)
    · exact absurd hmem (by decide)
    · exact notMem_of_isIdentifier hname (by decide) hmem
  have hline (line : List Char) : Text.reindentLine indent.toList ("to ".toList ++ line) =
      "to ".toList ++ line := Text.reindentLine_cons _ (by decide) _
  unfold Opens
  rw [reindent, String.toList_ofList, heq]
  rcases hc with rfl | rfl
  · have hspace : '\n' ∉ "to ".toList ++ name.toList ++ [' '] := by simpa using hnewline
    obtain ⟨line, others, -, hsplit⟩ := Text.splitLines_append hspace rest
    rw [List.append_cons, hsplit, List.map_cons, List.append_assoc, List.append_assoc, hline]
    cases others.map (Text.reindentLine indent.toList) with
    | nil => exact ⟨' ', line, by simp [Text.joinLines], .inl rfl⟩
    | cons next others => exact ⟨' ', _, by simp [Text.joinLines]; rfl, .inl rfl⟩
  · obtain ⟨next, others, hrest⟩ := List.exists_cons_of_ne_nil (Text.splitLines_ne_nil rest)
    rw [Text.splitLines_append_newline hnewline, hrest, List.map_cons, hline, List.map_cons]
    exact ⟨'\n', _, rfl, .inr rfl⟩

end Turtle

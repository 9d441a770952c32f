import Turtle.Proofs.Block
import Turtle.Proofs.Text.Lines

/-!
# Comments, line by line

What stands before a block are lines, each behind the mark of a comment: those of its own comment,
wrapped, and those of the comments in its value inputs as they are.
-/

namespace Turtle

open Text (closeLines)

/-! ## Remarks -/

/-- The lines of a text. -/
def textLines (s : String) : List String := (Text.splitLines s.toList).map String.ofList

/-- A comment of one line. -/
def remark (line : String) : String := commentMark ++ line ++ "\n"

theorem textLines_ne_nil (s : String) : textLines s ≠ [] :=
  fun h ↦ Text.splitLines_ne_nil _ (List.map_eq_nil_iff.1 h)

theorem toList_remarks (lines : List String) : (String.join (lines.map remark)).toList =
    closeLines ((lines.map String.toList).map (commentMark.toList ++ ·)) := by
  rw [String.toList_join, closeLines, List.flatMap_map, List.map_map, List.flatMap_map]
  simp [remark, String.toList_append]

theorem forall_notMem_remarks {lines : List String} (h : ∀ line ∈ lines, '\n' ∉ line.toList) :
    ∀ l ∈ (lines.map String.toList).map (commentMark.toList ++ ·), '\n' ∉ l := by
  intro l hl
  rw [List.map_map] at hl
  obtain ⟨line, hline, rfl⟩ := List.mem_map.1 hl
  simpa [commentMark] using h line hline

theorem map_textLines (s : String) : (textLines s).map String.toList = Text.splitLines s.toList := by
  simp [textLines, Function.comp_def]

theorem toList_texts (texts : List String) : (String.join (texts.map (· ++ "\n"))).toList =
    closeLines ((texts.flatMap textLines).map String.toList) := by
  induction texts with
  | nil => rfl
  | cons s texts ih =>
    rw [List.map_cons, String.join_cons, String.toList_append, ih, List.flatMap_cons,
      List.map_append, map_textLines, Text.closeLines_append, Text.closeLines_splitLines,
      String.toList_append]
    rfl

theorem notMem_of_mem_textLines {s line : String} (h : line ∈ textLines s) :
    '\n' ∉ line.toList := by
  obtain ⟨chars, hchars, rfl⟩ := List.mem_map.1 h
  rw [String.toList_ofList]
  exact Text.notMem_of_mem_splitLines hchars

/-- Texts become comments line by line. -/
theorem prefixLines_texts {texts : List String} (h : texts ≠ []) :
    prefixLines commentMark (String.join (texts.map (· ++ "\n"))) =
      String.join ((texts.flatMap textLines).map remark) := by
  have hnewline : ∀ l ∈ (texts.flatMap textLines).map String.toList, '\n' ∉ l := by
    intro l hl
    obtain ⟨line, hline, rfl⟩ := List.mem_map.1 hl
    obtain ⟨s, -, hline⟩ := List.mem_flatMap.1 hline
    exact notMem_of_mem_textLines hline
  have hne : (texts.flatMap textLines).map String.toList ≠ [] := by
    obtain ⟨s, rest, rfl⟩ := List.exists_cons_of_ne_nil h
    simp [textLines_ne_nil]
  rw [← String.toList_inj, prefixLines, String.toList_ofList, toList_texts,
    Text.prefixLines_closeLines hnewline hne, toList_remarks]

namespace Block

/-- The comments of a block and of all blocks connected to it. -/
def allComments (b : Block) : List String := b.descendants.filterMap (·.head.comment?)

/-- The comments of the blocks in a value input. -/
def valueComments (i : Input Block) : List String :=
  match i.shape, i.target with
  | .value, some c => c.allComments
  | _, _ => []

/-- The lines of the comments before a block: of its own comment, wrapped, and of those in its value
inputs. -/
def commentLines (width : Nat) (b : Block) : List String :=
  b.head.comment?.toList.flatMap (textLines <| wrap (width - 3) ·) ++
    (b.inputs.flatMap valueComments).flatMap textLines

theorem ownComment_eq (width : Nat) (b : Block) : b.ownComment width =
    String.join ((b.head.comment?.toList.flatMap (textLines <| wrap (width - 3) ·)).map remark) := by
  unfold ownComment
  split
  · rename_i comment hcomment
    have hlines := prefixLines_texts (List.cons_ne_nil (wrap (width - 3) comment) [])
    simpa [hcomment] using hlines
  · rename_i hcomment
    rw [hcomment]
    rfl

theorem remarks_nestedComments (c : Block) :
    (if c.nestedComments == "" then "" else prefixLines commentMark c.nestedComments) =
      String.join ((c.allComments.flatMap textLines).map remark) := by
  have heq : c.nestedComments = String.join (c.allComments.map (· ++ "\n")) := rfl
  rw [heq]
  by_cases hnil : c.allComments = []
  · rw [hnil]
    rfl
  · have hne : String.join (c.allComments.map (· ++ "\n")) ≠ "" := by
      obtain ⟨s, rest, hcons⟩ := List.exists_cons_of_ne_nil hnil
      simp [hcons]
    rw [if_neg (by simpa using hne), prefixLines_texts hnil]

theorem inputComments_eq (b : Block) : b.inputComments =
    String.join (((b.inputs.flatMap valueComments).flatMap textLines).map remark) := by
  rw [inputComments]
  induction b.inputs with
  | nil => rfl
  | cons i rest ih =>
    rw [List.map_cons, String.join_cons, ih, List.flatMap_cons, List.flatMap_append,
      List.map_append, String.join_append]
    congr 1
    obtain ⟨name, shape, target⟩ := i
    cases shape with
    | statement => rfl
    | value =>
      cases target with
      | none => rfl
      | some c => exact c.remarks_nestedComments

/-- Every line of the comments before a block stands on a line of its own, behind a mark. -/
theorem comments_eq (width : Nat) (b : Block) :
    b.comments width = String.join ((b.commentLines width).map remark) := by
  rw [comments, ownComment_eq, inputComments_eq, commentLines, List.map_append, String.join_append]

variable {b : Block}

theorem notMem_of_mem_commentLines {width : Nat} {line : String}
    (h : line ∈ b.commentLines width) : '\n' ∉ line.toList := by
  rcases List.mem_append.1 h with h | h
  · obtain ⟨_, -, h⟩ := List.mem_flatMap.1 h
    exact notMem_of_mem_textLines h
  · obtain ⟨_, -, h⟩ := List.mem_flatMap.1 h
    exact notMem_of_mem_textLines h

/-- There are comments before a block unless the block and those in its value inputs have none. -/
theorem commentLines_eq_nil_iff {width : Nat} : b.commentLines width = [] ↔
    b.head.comment? = none ∧
      ∀ i ∈ b.inputs, i.shape = .value → ∀ c, i.target = some c → c.IsSilent := by
  have hlines (texts : List String) {f : String → List String} (hf : ∀ s, f s ≠ []) :
      texts.flatMap f = [] ↔ texts = [] := by
    cases texts <;> simp [hf]
  have hsilent (c : Block) : c.allComments = [] ↔ c.IsSilent := List.filterMap_eq_nil_iff
  rw [commentLines, List.append_eq_nil_iff, hlines _ fun _ ↦ textLines_ne_nil _,
    hlines _ textLines_ne_nil, Option.toList_eq_nil_iff, List.flatMap_eq_nil_iff]
  refine and_congr_right fun _ ↦ forall₂_congr fun i _ ↦ ?_
  rw [valueComments]
  split
  · rename_i c hshape hc
    simp [hshape, hc, hsilent]
  · rename_i hother
    refine iff_of_true rfl fun hshape c hc ↦ ?_
    exact absurd hc (hother c hshape)

end Block

end Turtle

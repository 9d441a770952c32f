import Turtle.Proofs.Compile.Commented
import Turtle.Proofs.Compile.Declared
import Turtle.Proofs.Compile.Guarded

/-!
# Deleting comments

The lines of a program that are comments are told by the semicolon behind their indentation.  When
they are deleted from the code of a statement, what is left is the code of the statement without any
comments, and they are the lines of all its comments, each of them once.
-/

namespace Turtle

variable {o : Options} {b : Block} {ms : Multiset String} {s₀ s : String}

/-- A text without the lines that are comments. -/
def uncommented (text : String) : String :=
  String.ofList (Text.joinLines ((Text.splitLines text.toList).filter (!Text.isComment ·)))

/-- The lines of a text that are comments, without their indentation. -/
def commentsIn (text : String) : List String :=
  ((Text.splitLines text.toList).filter Text.isComment).map fun l ↦
    String.ofList (l.dropWhile Text.isGap)

theorem dropWhile_remarkLine {gap : List Char} (hgap : ∀ c ∈ gap, Text.isGap c) (line : String) :
    (gap ++ remarkLine line).dropWhile Text.isGap = remarkLine line := by
  rw [List.dropWhile_append_of_pos hgap]
  rfl

theorem isComment_remarkLine {gap : List Char} (hgap : ∀ c ∈ gap, Text.isGap c) (line : String) :
    Text.isComment (gap ++ remarkLine line) := by
  rw [Text.isComment, dropWhile_remarkLine hgap]
  rfl

/-- Among the lines of a text without comments, those of comments are told apart. -/
theorem Woven.deleted (h : Woven remarkLine ms s₀ s) (hs₀ : Guarded s₀) :
    uncommented s = s₀ ∧ (↑(commentsIn s) : Multiset String) = ms.map (commentMark ++ ·) := by
  obtain ⟨ls₀, ls, htext₀, htext, hls₀, hls, hweave⟩ := h
  have hkeep : ∀ l ∈ ls₀, Text.isComment l = false := by
    intro l hl
    refine Text.Guarded.isComment (Text.Guarded.of_mem_splitLines hs₀ ?_)
    rw [htext₀, Text.splitLines_closeLines hls₀]
    exact List.mem_append_left _ hl
  constructor
  · have hfilter : ls.filter (!Text.isComment ·) = ls₀ :=
      hweave.filter (fun l hl ↦ by simp [hkeep l hl])
        fun gap hgap line ↦ by rw [isComment_remarkLine hgap, Bool.not_true]
    rw [uncommented, htext, Text.splitLines_closeLines hls, List.filter_append, hfilter,
      ← String.toList_inj, String.toList_ofList, htext₀, ← Text.joinLines_splitLines
        (Text.closeLines ls₀), Text.splitLines_closeLines hls₀]
    rfl
  · have hmarks := hweave.filter_marks hkeep (f := fun l ↦ String.ofList (l.dropWhile Text.isGap))
      (g := (commentMark ++ ·)) fun gap hgap line ↦ ⟨isComment_remarkLine hgap line, ?_⟩
    · rw [← hmarks, commentsIn, htext, Text.splitLines_closeLines hls, List.filter_append,
        List.filter_cons_of_neg (by decide), List.filter_nil, List.append_nil]
    · rw [dropWhile_remarkLine hgap, ← String.toList_inj, String.toList_ofList,
        String.toList_append]
      rfl

/-- An enabled block that writes code where it stands and has everything connected where it
belongs. -/
structure Block.IsProper (b : Block) : Prop extends b.WritesCode, b.WellConnected where
  enabled : b.head.enabled

instance : DecidablePred Block.IsProper := fun b ↦
  decidable_of_iff (b.WritesCode ∧ b.WellConnected ∧ b.head.enabled)
    ⟨fun h ↦ ⟨h.1, h.2.1, h.2.2⟩, fun h ↦ ⟨h.toWritesCode, h.toWellConnected, h.enabled⟩⟩

/-- A block without comments writes code as before. -/
theorem Block.WritesCode.hushed (h : ∀ d ∈ b.descendants, d.WritesCode) :
    ∀ d ∈ b.hushed.descendants, d.WritesCode := by
  intro d hd
  rw [Block.hushed, Block.descendants_mapHeads] at hd
  obtain ⟨d', hd', rfl⟩ := List.mem_map.1 hd
  rw [Block.mapHeads_eq]
  exact ⟨(h d' hd').definition, (h d' hd').choices⟩

namespace Compiler

/-- A statement is compiled as it is without the comments in it, with the same error if it cannot be.
Otherwise its code without the lines that are comments is the code without comments, and these lines
are those of the comments of all its blocks, each block once.  It does not matter what was done in
the session before. -/
theorem block_hushed (hindent : ∀ c ∈ o.indent.toList, Text.isGap c)
    (hb : Emitter.shape? b.head.kind = some .statement) (htree : ∀ d ∈ b.descendants, d.IsProper)
    (options : Options) (calls : List Session.Call) :
    let p := ((Session.ofOptions options).after calls).pass
    (∃ text q, (bare o).block b false false p = .ok (.statement text) q ∧
      (bare o).block b.hushed false false p = .ok (.statement (uncommented text)) q ∧
      (commentsIn text).Perm (b.descendants.flatMap fun d ↦
        (d.remarkLines o.commentWidth).map (commentMark ++ ·))) ∨
    ∃ error q, (bare o).block b false false p = .error error q ∧
      (bare o).block b.hushed false false p = .error error q := by
  intro p
  have hp : p.Sound := Session.sound_after options calls
  have hmatches : BlockMatches o b := matches_block hindent fun d hd ↦
    ⟨(htree d hd).toWellConnected, (htree d hd).enabled, (htree d hd).definition⟩
  rcases hmatches false p with ⟨code₀, code, q, hrun₀, hrun, hcode⟩ | ⟨error, q, hrun₀, hrun⟩
  · cases hcode with
    | value expression =>
      rw [Block.IsExpression, hb] at expression
      cases expression
    | @statement s₀ s _ _ _ woven =>
      have hsemicolon : ';' ∉ o.indent.toList := fun hmem ↦ absurd (hindent _ hmem) (by decide)
      have hwrites := Block.WritesCode.hushed fun d hd ↦ (htree d hd).toWritesCode
      -- Only what is woven in is taken for comments, since the code without them opens none.
      have hguarded : Guarded s₀ :=
        ((leaves_guarded hsemicolon hwrites b.isSilent_hushed false false).of_ok hp hrun₀).2
      obtain ⟨htext, hcomments⟩ := (woven rfl).deleted hguarded
      refine .inl ⟨s, q, hrun, htext ▸ hrun₀, ?_⟩
      rw [remarksOf, Multiset.map_coe, Multiset.coe_eq_coe, List.map_flatMap] at hcomments
      exact hcomments
  · exact .inr ⟨error, q, hrun, hrun₀⟩

end Compiler

/-- A loop around a statement that prints a text of two lines, with comments on all of them. -/
def remarkedLoop : Block :=
  ((Block.ofKind "controls_repeat" "a").withField "TIMES" (.text "2")).withComment "twice\n\nover"
    |>.withInput "DO" .statement <| some <|
      ((Block.ofKind "text_print" "b").withComment "say").withInput "TEXT" .value <| some <|
        ((Block.ofKind "text_multiline" "c").withField "TEXT" (.text "; no\n;comment")).withComment
          "two\nlines"

/-- The code of the loop. -/
def remarkedLoopText : String :=
  "; twice\n; \n; over\nrepeat 2 [\n  ; say\n  ; two\n  ; lines\n" ++
    "  pr (\"\\;\\ no\\\n  \"\\;comment)\n]\n"

theorem Compiler.block_hushed_remarkedLoop :
    (∀ c ∈ ({} : Options).indent.toList, Text.isGap c) ∧
      Emitter.shape? remarkedLoop.head.kind = some .statement ∧
      (∀ d ∈ remarkedLoop.descendants, d.IsProper) ∧
      ∃ q, (bare {}).block remarkedLoop false false {} = .ok (.statement remarkedLoopText) q ∧
        (bare {}).block remarkedLoop.hushed false false {} =
          .ok (.statement "repeat 2 [\n  pr (\"\\;\\ no\\\n  \"\\;comment)\n]\n") q ∧
        (commentsIn remarkedLoopText).Perm
          ["; twice", "; ", "; over", "; say", "; two", "; lines"] := by
  have hindent : ∀ c ∈ ({} : Options).indent.toList, Text.isGap c :=
    List.all_eq_true.1 (by decide)
  have hshape : Emitter.shape? remarkedLoop.head.kind = some .statement := by decide
  have htree : ∀ d ∈ remarkedLoop.descendants, d.IsProper := by decide +kernel
  have htext : ((bare {}).block remarkedLoop false false).run' {} =
      some (.statement remarkedLoopText) := by
    decide +kernel
  have hcode : uncommented remarkedLoopText =
      "repeat 2 [\n  pr (\"\\;\\ no\\\n  \"\\;comment)\n]\n" := by
    decide +kernel
  have hcomments : (remarkedLoop.descendants.flatMap fun d ↦
      (d.remarkLines ({} : Options).commentWidth).map (commentMark ++ ·)) =
        ["; twice", "; ", "; over", "; say", "; two", "; lines"] := by
    decide +kernel
  obtain ⟨q, hrun⟩ := PassM.exists_ok htext
  rcases block_hushed hindent hshape htree {} [] with
    ⟨text, q', hrun', hrun₀, hperm⟩ | ⟨error, q', hrun', -⟩
  · obtain ⟨⟨⟩, rfl⟩ := EStateM.Result.ok.inj (hrun.symm.trans hrun')
    exact ⟨hindent, hshape, htree, q, hrun, hcode ▸ hrun₀, hcomments ▸ hperm⟩
  · cases hrun.symm.trans hrun'

end Turtle

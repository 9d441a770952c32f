import Turtle.Proofs.Compile.Emitted
import Turtle.Proofs.Compile.Texture
import Turtle.Proofs.Emitter.Bracket

/-!
# Programs are well nested

In a pass over blocks without brackets in what is taken over from them, everything is balanced: the
comments, the definitions that are collected, and what every block leaves.  So the brackets of the
program are well nested.
-/

namespace Turtle

open Logo (Order)

/-! ## Comments -/

namespace Block

variable {b : Block}

theorem bracketFree_comment {h : Head} (hh : h.BracketFree) {comment : String}
    (hcomment : h.comment? = some comment) : BracketFree comment := by
  rw [Head.comment?, Option.filter_eq_some_iff] at hcomment
  exact hh.comment comment hcomment.1

theorem bracketFree_newline : BracketFree "\n" := by decide

theorem bracketFree_commentMark : BracketFree commentMark := by decide

theorem balanced_nestedComments (hb : ∀ d ∈ b.descendants, d.head.BracketFree) :
    Balanced b.nestedComments := by
  refine balanced_texture.join fun s hs ↦ ?_
  obtain ⟨comment, hcomment, rfl⟩ := List.mem_map.1 hs
  obtain ⟨d, hd, hcomment⟩ := List.mem_filterMap.1 hcomment
  exact ((bracketFree_comment (hb d hd) hcomment).append bracketFree_newline).balanced

/-- The comments before a block are balanced. -/
theorem balanced_comments (hb : ∀ d ∈ b.descendants, d.head.BracketFree) (width : Nat) :
    Balanced (b.comments width) := by
  have hown : Balanced (b.ownComment width) := by
    unfold ownComment
    split
    · rename_i comment hcomment
      have hfree := bracketFree_comment (hb b b.self_mem_descendants) hcomment
      exact .prefixLines bracketFree_commentMark
        ((hfree.wrap _).append bracketFree_newline).balanced
    · exact balanced_empty
  refine hown.append (balanced_texture.join fun s hs ↦ ?_)
  obtain ⟨i, hi, rfl⟩ := List.mem_map.1 hs
  split
  · rename_i c _ hc
    simp only
    split
    · exact balanced_empty
    · apply Balanced.prefixLines bracketFree_commentMark
      exact balanced_nestedComments (forall_of_input hb hi hc)
  · exact balanced_empty

end Block

/-! ## The state -/

/-- All identifiers are legal and all definitions balanced. -/
structure Pass.Nested (p : Pass) : Prop where
  sound : p.Sound
  definitions : ∀ definition ∈ p.definitions, Balanced definition.2

namespace Emitter

theorem balanced_helpers : ∀ entry ∈ helpers, Balanced ("\n".intercalate entry.2) := by
  have hheading {params : String} (hparams : Balanced params) {ls : List String}
      (hls : Text.nestLines [] ls = some []) :
      Balanced ("\n".intercalate (("to " ++ Pass.namePlaceholder ++ params) :: ls)) := by
    have hto : Balanced ("to " ++ Pass.namePlaceholder ++ params) :=
      (Balanced.append (fun _ ↦ rfl) (fun _ ↦ rfl)).append hparams
    rw [balanced_iff_wellNested, WellNested, Text.nest_intercalate, Text.nestLines, hto,
      Option.bind_some, hls]
  simp only [helpers, List.forall_mem_cons]
  refine ⟨hheading (balanced_ofList fun _ ↦ rfl) ?_, hheading (balanced_ofList fun _ ↦ rfl) ?_,
    hheading (balanced_ofList fun _ ↦ rfl) ?_, hheading (balanced_ofList fun _ ↦ rfl) ?_,
    hheading (balanced_ofList fun _ ↦ rfl) ?_, List.forall_mem_nil _⟩
  all_goals
    repeat refine Text.nestLines_cons rfl ?_
    rfl

/-- The helpers are balanced under any name. -/
theorem balanced_helperText {indent : String} (hindent : BracketFree indent)
    {entry : String × List String} (h : entry ∈ helpers) {name : String}
    (hname : isIdentifier name) : Balanced (Pass.helperText indent entry.2 name) := by
  have hmark : BracketFree Pass.namePlaceholder := by decide
  exact .reindent hindent (.replace hmark (.of_isIdentifier hname) (balanced_helpers entry h))

end Emitter

namespace Pass.Nested

variable {p : Pass}

theorem name (h : p.Nested) (kind : NameKind) (nameOrId : String) :
    Balanced (p.name kind nameOrId).1 ∧ (p.name kind nameOrId).2.Nested :=
  ⟨(BracketFree.of_isIdentifier (h.sound.names.isIdentifier_get kind nameOrId)).balanced,
    h.sound.name kind nameOrId, h.definitions⟩

theorem helper (h : p.Nested) {indent : String} (hindent : BracketFree indent) {key : String}
    {lines : List String} (hknown : (key, lines) ∈ Emitter.helpers) :
    Balanced (p.helper indent key lines).1 ∧ (p.helper indent key lines).2.Nested := by
  have hsound := h.sound.helper indent key lines
  obtain ⟨chosen, hlookup, heq⟩ | ⟨-, chosen, hlegal, -, heq⟩ := p.helper_cases indent key lines
  · rw [heq]
    have hlegal := h.sound.legal (key, chosen) (Table.mem_of_lookup hlookup)
    exact ⟨(BracketFree.of_isIdentifier hlegal).balanced, h⟩
  · rw [heq] at hsound ⊢
    refine ⟨(BracketFree.of_isIdentifier hlegal).balanced, hsound, fun definition hmem ↦ ?_⟩
    rcases List.mem_append.1 hmem with hmem | hmem
    · exact h.definitions definition hmem
    · rw [List.mem_singleton.1 hmem]
      exact Emitter.balanced_helperText hindent hknown hlegal

theorem define (h : p.Nested) (name : String) {code : String} (hcode : Balanced code) :
    (p.define name code).Nested := by
  refine ⟨h.sound.define name code, fun definition hmem ↦ ?_⟩
  rcases Table.mem_put hmem with rfl | hmem
  · exact hcode
  · exact h.definitions definition hmem

theorem program (h : p.Nested) {code : String} (hcode : Balanced code) :
    Balanced (p.program code) := by
  have hblank (s : String) (hs : BracketFree s := by decide) : Balanced s := hs.balanced
  refine ((balanced_texture.intercalate (hblank "\n\n") fun s hs ↦ ?_).append
    (hblank "\n\n\n")).append hcode
  obtain ⟨definition, hmem, rfl⟩ := List.mem_map.1 hs
  exact h.definitions definition hmem

end Pass.Nested

theorem Workspace.nested_start (w : Workspace) : w.start.Nested := ⟨w.sound_start, nofun⟩

/-! ## Computations -/

/-- A computation that keeps the state nested and whose result, if there is one, is balanced. -/
abbrev PassM.Nests {α : Type} (text : α → String) (m : PassM α) : Prop :=
  m.Leaves Pass.Nested Balanced text

open PassM (Nests Ends)

namespace Emitter

variable {h : Head} {e : Emitter} {v : View} {indent : String} {n : Neighbours}

/-- What the emitter of a block leaves is balanced, and what it registers too. -/
theorem ends_emit (he : standard? h.kind = some e) (hkind : v.head.kind = h.kind)
    (ho : v.options.BracketFree) (hv : v.head.BracketFree)
    (hrespond : ∀ q, q.Known → (Recipe.respond indent n q).Nests id)
    (hfinish : ∀ code, Balanced code → (n.finish code).Nests id) :
    ((e.emit v).run indent n).Nests Emission.text := by
  rcases standard?_nests he with rfl | hnests
  · -- A definition is registered with what `finish` makes of it.
    have hname := hrespond (.procedure (v.field "NAME")) trivial
    rw [emit_definition, Recipe.procedureName, Recipe.answer, Recipe.run_bind]
    refine Ends.bind (Q := Balanced) (hname.bind fun _ ↦ Ends.pure) fun name hname ↦ ?_
    rw [Recipe.run_bind]
    refine (Recipe.ends_run hrespond (balanced_definitionCode ho hv hname)).bind fun code hcode ↦ ?_
    refine (hfinish code hcode).bind fun whole hwhole ↦ ?_
    refine (Ends.modify fun p hp ↦ hp.define name hwhole).bind fun _ _ ↦ ?_
    exact Ends.pure balanced_empty
  · exact Recipe.ends_run hrespond (hnests v hkind ho hv)

end Emitter

namespace Compiler

variable {o : Options} {b : Block}

theorem grants_nested {indent : String} (hindent : BracketFree indent) :
    Pass.Grants Pass.Nested Balanced indent :=
  ⟨fun _ hp kind nameOrId ↦ hp.name kind nameOrId, fun _ hp _ hentry ↦ hp.helper hindent hentry⟩

/-- What a block leaves with everything below and behind it is balanced. -/
theorem nests_block (ho : o.BracketFree) (hb : ∀ d ∈ b.descendants, d.head.BracketFree)
    (alone plugged : Bool) :
    (({ options := o } : Compiler).block b alone plugged).Nests Code.text := by
  refine leaves_block balanced_texture (fun _ ↦ Balanced.parens) (fun d hd ↦ ⟨?_, ?_, ?_⟩) _ _
  · exact Block.balanced_comments (fun d' hd' ↦ hb d' (Block.descendants_subset hd hd')) _
  · exact fun code ↦ ho.surround (hb d hd).id
  · intro e he hn
    refine Emitter.ends_emit he rfl ho (hb d hd) (fun q hq ↦ ?_) hn.finish
    exact Recipe.leaves_respond hn (grants_nested ho.indent) balanced_texture
      (fun _ ↦ .prefixLines ho.indent) hq

theorem nests_topBlock (ho : o.BracketFree) (hb : ∀ d ∈ b.descendants, d.head.BracketFree) :
    (({ options := o } : Compiler).topBlock b).Nests id := by
  refine (nests_block ho hb false false).bind fun code hcode ↦ ?_
  have hid := (hb b b.self_mem_descendants).id
  have hline (text : String) (htext : Balanced text) :
      Balanced (({ options := o } : Compiler).topLine b.head text) := by
    have hignored : Balanced (ignoreValue text) := fun awaited ↦ by simp [ignoreValue, htext]
    unfold topLine
    split
    · exact balanced_empty
    · split
      · split
        · split
          · exact hignored
          · exact ho.surround hid hignored
        · exact htext
      · exact htext
  cases code with
  | statement code => exact Ends.pure (hline code hcode)
  | value code order => exact Ends.pure (hline code hcode)

/-- The brackets of every program are well nested, unless some are taken over from a text, a choice,
a comment, an id or the options. -/
theorem wellNested_program (ho : o.BracketFree) {w : Workspace}
    (hw : ∀ b ∈ w.allBlocks, b.head.BracketFree) {text : String}
    (h : ({ options := o } : Compiler).program w = .ok text) : WellNested text := by
  obtain ⟨parts, p, hrun, rfl⟩ := of_program_ok h
  have hblocks : (({ options := o } : Compiler).topBlocks w).Ends Pass.Nested
      (∀ part ∈ ·, Balanced part) fun _ ↦ True := by
    refine (Ends.mapM fun b hb ↦ nests_topBlock ho fun d hd ↦ hw d ?_).bind fun all hall ↦
      Ends.pure fun part hpart ↦ hall part (List.mem_filter.1 hpart).1
    exact List.mem_flatMap.2 ⟨b, hb, hd⟩
  obtain ⟨hp, hparts⟩ := hblocks.of_ok w.nested_start hrun
  have hline : Balanced "\n" := fun _ ↦ rfl
  exact balanced_iff_wellNested.1 (hp.program (balanced_texture.intercalate hline hparts)).tidy

end Compiler

/-- A procedure that prints its parameter, sorted.  The names of both have brackets. -/
def bracketNames : Workspace where
  vars := [⟨"v", "x["⟩]
  topBlocks := [
    (((Block.ofKind "procedures_defnoreturn" "a").withField "NAME" (.text "f(")).withMutation
      { params := ["x["] }).withInput "STACK" .statement (some
        (((Block.ofKind "text_print" "b").withComment "all of it").withInput "TEXT" .value (some
          ((Block.ofKind "lists_sort" "c").withInput "LIST" .value (some
            ((Block.ofKind "variables_get" "d").withField "VAR"
              (.variable (some "v") none)))))))]

/-- Snippets around every statement. -/
def markedOptions : Options := { before := some "show %1\n", trap := some "pause %1\n" }

theorem Compiler.wellNested_program_bracketNames :
    markedOptions.BracketFree ∧ (∀ b ∈ bracketNames.allBlocks, b.head.BracketFree) ∧
    ∃ text, ({ options := markedOptions } : Compiler).program bracketNames = .ok text ∧
      WellNested text := by
  have ho : markedOptions.BracketFree := by decide
  have hw : ∀ b ∈ bracketNames.allBlocks, b.head.BracketFree := by decide +kernel
  have hok : (({ options := markedOptions } : Compiler).program bracketNames).isOk := by
    decide +kernel
  cases htext : ({ options := markedOptions } : Compiler).program bracketNames with
  | error e =>
    rw [htext] at hok
    cases hok
  | ok text => exact ⟨ho, hw, text, rfl, wellNested_program ho hw htext⟩

end Turtle

import Turtle.Proofs.Compile.Hushed
import Turtle.Proofs.Compile.Matching

/-!
# Comments are transparent

A block is compiled like the one without any comments, and its code is the same up to lines that are
comments.  There is one for each line of the comments in the block, wherever it stands.
-/

namespace Turtle

open Logo (Order)
open PassM (Matches)
open Recipe (run_bind)

variable {o : Options} {b : Block} {e : Emitter} {width : Nat} {plugged : Bool}

/-! ## Lines -/

/-- A line of a comment. -/
def remarkLine (line : String) : List Char := commentMark.toList ++ line.toList

/-- The lines of the comments of some blocks. -/
def remarksOf (width : Nat) (blocks : List Block) : Multiset String :=
  ↑(blocks.flatMap (Block.remarkLines width))

theorem remarksOf_append (blocks blocks' : List Block) :
    remarksOf width (blocks ++ blocks') = remarksOf width blocks + remarksOf width blocks' := by
  rw [remarksOf, List.flatMap_append, ← Multiset.coe_add]
  rfl

theorem remarksOf_perm {blocks blocks' : List Block} (h : blocks.Perm blocks') :
    remarksOf width blocks = remarksOf width blocks' :=
  Multiset.coe_eq_coe.2 (h.flatMap_right _)

/-- The text of comments, where the other text has nothing. -/
theorem woven_remarks {lines : List String} (h : ∀ line ∈ lines, '\n' ∉ line.toList) :
    Woven remarkLine ↑lines "" (String.join (lines.map remark)) := by
  induction lines with
  | nil => exact .empty
  | cons line lines ih =>
    obtain ⟨hline, hlines⟩ := List.forall_mem_cons.1 h
    have hmark : Woven remarkLine {line} "" (remark line) := by
      have hgap : ∀ c ∈ ([] : List Char), Text.isGap c := nofun
      refine .mark hgap ?_ ?_
      · simpa [remarkLine, commentMark] using hline
      · simp [remark, remarkLine, String.toList_append]
    rw [List.map_cons, String.join_cons, ← Multiset.cons_coe, ← Multiset.singleton_add]
    exact hmark.append (ih hlines)

/-- The code of a block, beside that of the block without comments.  An expression that is plugged
into an input has the same code. -/
inductive CodeCommented (width : Nat) (b : Block) (plugged : Bool) : Code → Code → Prop
  | value {code₀ code : String} {order : Order} (expression : b.IsExpression)
    (eq : plugged → b.next = none → code₀ = code) :
    CodeCommented width b plugged (.value code₀ order) (.value code order)
  | statement {s₀ s : String} (expression : ¬ b.IsExpression) (ne₀ : s₀ ≠ "") (ne : s ≠ "")
    (woven : plugged = false → Woven remarkLine (remarksOf width b.descendants) s₀ s) :
    CodeCommented width b plugged (.statement s₀) (.statement s)

/-- What is emitted for a block, beside what is emitted for the block without comments. -/
inductive EmissionCommented (width : Nat) (b : Block) (e : Emitter) : Emission → Emission → Prop
  | value {code : String} {order : Order} (shape : e.shape = .value) :
    EmissionCommented width b e (.value code order) (.value code order)
  | statement {s₀ s : String} (shape : e.shape = .statement) (ne : s₀ ≠ "")
    (woven : Woven remarkLine (remarksOf width (b.inputs.flatMap Block.statementTree)) s₀ s) :
    EmissionCommented width b e (.statement s₀) (.statement s)

/-- What is around a block, beside what is around the block without comments. -/
structure NeighboursMatch (o : Options) (b : Block) : Prop where
  value : ∀ input outer, Matches (· = ·) ((Compiler.bare o).value b.hushed input outer)
    ((Compiler.bare o).value b input outer)
  body : ∀ input, Matches (Woven remarkLine (remarksOf o.commentWidth (b.bodyTree input)))
    ((Compiler.bare o).body b.hushed input) ((Compiler.bare o).body b input)
  following : Matches (Woven remarkLine (remarksOf o.commentWidth b.behind))
    ((Compiler.bare o).chain b.hushed.next) ((Compiler.bare o).chain b.next)

/-- Comments aside, a block looks the same. -/
theorem agrees_hushed (c : Compiler) (e : Emitter) (b : Block) :
    (c.view e b.hushed).Agrees (c.view e b) where
  manual := rfl
  kind := by simp [Compiler.view]
  id := by simp [Compiler.view]
  mutation := by simp [Compiler.view]
  inputNames := by simp [Compiler.view, Block.hushed, Function.comp_def, Block.mapInput]
  field name := by simp [Compiler.view, View.field, Head.field, Head.field?]
  hasField name := by simp [Compiler.view, Head.hasField, Head.field?]
  oneBased := rfl
  indent := rfl

/-- The lines in front of a statement, in its bodies and behind it are those of all comments. -/
theorem remarksOf_descendants (hb : ∀ d ∈ b.descendants, d.WellConnected)
    (hstatement : ¬ b.IsExpression) : remarksOf width b.descendants =
      ↑(b.commentLines width) + remarksOf width (b.inputs.flatMap Block.statementTree) +
        remarksOf width b.behind := by
  rw [b.descendants_eq_append, remarksOf_append, ← List.singleton_append, remarksOf_append,
    remarksOf_perm b.perm_inner, remarksOf_append,
    Block.WellConnected.commentLines_eq hb hstatement, ← Multiset.coe_add, remarksOf,
    List.flatMap_singleton]
  simp only [remarksOf, add_assoc]

/-- A statement with the statements in its bodies. -/
theorem matches_statement (hb : b.WellConnected) {f : View → Recipe String} {manual : Bool}
    (he : e = { Emitter.statement f with manual }) {names : List String} (hnames : names.Nodup)
    (hall : ∀ entry ∈ Emitter.statementInputs, entry.1 = b.head.kind → entry.2 ∈ names) {v : View}
    (hf : Matches (fun s₀ s ↦ s₀ ≠ "" ∧
        Woven remarkLine (remarksOf o.commentWidth (names.flatMap b.bodyTree)) s₀ s)
      ((f v).run o.indent ((Compiler.bare o).neighbours b.hushed))
      ((f v).run o.indent ((Compiler.bare o).neighbours b))) :
    Matches (EmissionCommented o.commentWidth b e)
      ((e.emit v).run o.indent ((Compiler.bare o).neighbours b.hushed))
      ((e.emit v).run o.indent ((Compiler.bare o).neighbours b)) := by
  have hemit : e.emit v = f v >>= fun code ↦ pure (.statement code) := by
    rw [he]
    rfl
  rw [hemit, run_bind, run_bind]
  refine hf.bind fun s₀ s h ↦ .pure (.statement (by rw [he]; rfl) h.1 ?_)
  rw [remarksOf_perm (hb.perm_bodies hnames hall)]
  exact h.2

namespace NeighboursMatch

variable (h : NeighboursMatch o b)
include h

/-- A recipe in which no statements are needed. -/
theorem flat {α : Type} {Q : α → Prop} {r : Recipe α} (hr : r.Flat Q) :
    Matches (fun a₀ a ↦ a₀ = a ∧ Q a)
      (r.run o.indent ((Compiler.bare o).neighbours b.hushed))
      (r.run o.indent ((Compiler.bare o).neighbours b)) :=
  Recipe.matches_flat h.value hr

theorem loop {f head : View → Recipe String} (hf : Emitter.IsLoop f head) (v : View)
    (hv : v.options = o.bare) :
    Matches (fun s₀ s ↦ s₀ ≠ "" ∧
        Woven remarkLine (remarksOf o.commentWidth (b.bodyTree "DO")) s₀ s)
      ((f v).run o.indent ((Compiler.bare o).neighbours b.hushed))
      ((f v).run o.indent ((Compiler.bare o).neighbours b)) := by
  have hbody (manual : Bool) (id body : String) : o.bare.loopBody manual id body = body := by
    simp [Options.loopBody, Options.bare, Options.indented, Options.beforeOf, Options.afterOf,
      Options.trapOf]
  rw [hf.eq, run_bind, run_bind]
  refine (h.flat (hf.flat v)).bind ?_
  rintro opening _ ⟨rfl, t, rfl⟩
  refine (h.body "DO").bind fun s₀ s hwoven ↦ .pure ⟨by simp, ?_⟩
  rw [hv, hbody, hbody]
  simpa using ((Woven.same t).append hwoven).append (.same "]")

theorem branch (v : View) (hv : v.options = o.bare) :
    Matches (fun s₀ s ↦ s₀ ≠ "" ∧ Woven remarkLine (remarksOf o.commentWidth
        (["DO0", "ELSE"].flatMap b.bodyTree)) s₀ s)
      ((Emitter.branch v).run o.indent ((Compiler.bare o).neighbours b.hushed))
      ((Emitter.branch v).run o.indent ((Compiler.bare o).neighbours b)) := by
  rw [Emitter.branch, run_bind, run_bind]
  refine (h.flat (Emitter.flat_operand_self _ _ _)).bind ?_
  rintro condition _ ⟨rfl, -⟩
  refine (h.body "DO0").bind fun yes₀ yes hyes ↦ ?_
  refine (h.body "ELSE").bind fun no₀ no hno ↦ .pure ⟨by simp, ?_⟩
  have hwoven := ((((Woven.same ("ifelse " ++ condition ++ " [")).append hyes).append
    (.same "] [")).append hno).append (.same "]")
  rw [List.flatMap_cons, List.flatMap_singleton, remarksOf_append]
  convert hwoven using 1
  · abel
  · simp [hv, String.append_assoc, Options.bare, Options.beforeOf, Options.afterOf,
      Options.indented]
  · simp [hv, String.append_assoc, Options.bare, Options.beforeOf, Options.afterOf,
      Options.indented]

theorem conditionalReturn (v : View) :
    Matches (fun s₀ s ↦ s₀ ≠ "" ∧ Woven remarkLine 0 s₀ s)
      ((Emitter.conditionalReturn v).run o.indent ((Compiler.bare o).neighbours b.hushed))
      ((Emitter.conditionalReturn v).run o.indent ((Compiler.bare o).neighbours b)) := by
  rw [Emitter.conditionalReturn_eq, run_bind, run_bind]
  refine (h.flat Emitter.flat_returnParts).bind ?_
  rintro ⟨condition, exit⟩ _ ⟨rfl, -⟩
  refine .pure ⟨by simp, ?_⟩
  convert Woven.same ("if " ++ condition ++ " [\n" ++
    v.options.indented (v.options.afterOf v.head.id) ++ v.options.indent ++ exit ++ "\n]") using 1
  · simp [String.append_assoc]
  · simp [String.append_assoc]

/-- What is emitted for a block that has nothing to do with statements. -/
theorem leaf (hb : b.WellConnected) (he : Emitter.standard? b.head.kind = some e)
    (hkind : b.head.kind ∉ Emitter.snippetKinds) (v : View) :
    Matches (EmissionCommented o.commentWidth b e)
      ((e.emit v).run o.indent ((Compiler.bare o).neighbours b.hushed))
      ((e.emit v).run o.indent ((Compiler.bare o).neighbours b)) := by
  have hkinds : ∀ entry ∈ Emitter.statementInputs, entry.1 ∈ Emitter.snippetKinds := by decide
  have hflat := (Emitter.isFlat_standard he hkind).2
  refine (h.flat (hflat v)).mono ?_
  rintro emission _ ⟨rfl, hleaves⟩
  cases hshape : e.shape with
  | value =>
    rw [hshape] at hleaves
    cases emission with
    | value code order => exact .value hshape
    | statement | hoisted => exact hleaves.elim
  | statement =>
    rw [hshape] at hleaves
    cases emission with
    | statement code =>
      obtain ⟨s, rfl⟩ := hleaves
      refine .statement hshape (by simp) ?_
      rw [remarksOf_perm (hb.perm_bodies List.nodup_nil fun entry hentry heq ↦
        absurd (heq ▸ hkinds entry hentry) hkind)]
      exact .same s
    | value | hoisted => exact hleaves.elim

/-- What is emitted for a block that defines no procedure. -/
theorem emit (hb : b.WellConnected) (he : Emitter.standard? b.head.kind = some e)
    (hdefinition : ¬ b.head.isDefinition) :
    Matches (EmissionCommented o.commentWidth b e)
      ((e.emit ((Compiler.bare o).view e b.hushed)).run o.indent
        ((Compiler.bare o).neighbours b.hushed))
      ((e.emit ((Compiler.bare o).view e b)).run o.indent ((Compiler.bare o).neighbours b)) := by
  rw [Emitter.emit_congr he (agrees_hushed _ e b) fun _ ↦ rfl]
  by_cases hkind : b.head.kind ∈ Emitter.snippetKinds
  · obtain ⟨hloop, f, head, rfl, hf⟩ | ⟨hbranch, rfl⟩ | ⟨hreturn, rfl⟩ :=
      Emitter.standard?_snippetKinds he hkind (Head.isDefinition_iff.not.1 hdefinition)
    · have hnames : ∀ kind ∈ loopKinds, ∀ entry ∈ Emitter.statementInputs, entry.1 = kind →
          entry.2 ∈ ["DO"] := by
        decide
      refine matches_statement hb rfl (by decide) (hnames _ hloop) ?_
      simpa using h.loop hf _ rfl
    · have hnames : ∀ entry ∈ Emitter.statementInputs, entry.1 = "controls_ifelse" →
          entry.2 ∈ ["DO0", "ELSE"] := by
        decide
      exact matches_statement hb rfl (by decide) (hbranch ▸ hnames) (h.branch _ rfl)
    · have hnames : ∀ entry ∈ Emitter.statementInputs, entry.1 = "procedures_ifreturn" →
          entry.2 ∈ ([] : List String) := by
        decide
      exact matches_statement hb rfl List.nodup_nil (hreturn ▸ hnames) (h.conditionalReturn _)
  · exact h.leaf hb he hkind _

/-- What becomes of an emission, with the comments of the block and what is behind it. -/
theorem settle (hb : ∀ d ∈ b.descendants, d.WellConnected)
    (he : Emitter.standard? b.head.kind = some e) {emission₀ emission : Emission}
    (hemission : EmissionCommented o.commentWidth b e emission₀ emission) (plugged : Bool) :
    Matches (CodeCommented o.commentWidth b plugged)
      ((Compiler.bare o).settle e b.hushed.head
        ((Compiler.bare o).finish b.hushed false plugged) emission₀)
      ((Compiler.bare o).settle e b.head ((Compiler.bare o).finish b false plugged) emission) := by
  have hshape := Emitter.shape?_of_standard? he
  have hsilent : (if plugged then "" else b.hushed.comments o.commentWidth) = "" := by
    rw [b.isSilent_hushed.comments, ite_self]
  cases hemission with
  | value shape =>
    rw [Compiler.settle_value _ shape, Compiler.settle_value _ shape, Compiler.finish_eq,
      Compiler.finish_eq, bind_assoc, bind_assoc]
    rw [shape] at hshape
    refine h.following.bind fun rest₀ rest hrest ↦ .pure (.value hshape ?_)
    rintro rfl hnext
    rw [Block.behind, hnext] at hrest
    rw [hrest.eq_of_zero]
    rfl
  | @statement s₀ s shape ne woven =>
    have hexpression : ¬ b.IsExpression := by
      rw [Block.IsExpression, hshape, shape]
      decide
    have hplain (head : Head) (code : String) :
        (if e.manual then code else (Compiler.bare o).options.surround head.id code) = code := by
      rw [Options.surround_bare, ite_self]
    simp only [Compiler.settle, hplain, Compiler.finish_eq, bind_assoc, pure_bind]
    refine h.following.bind fun rest₀ rest hrest ↦ .pure ?_
    refine .statement hexpression (by simp [ne]) (by simp [woven.ne_empty ne]) ?_
    rintro rfl
    have hcomments := woven_remarks fun line
      (hline : line ∈ b.commentLines o.commentWidth) ↦ Block.notMem_of_mem_commentLines hline
    rw [remarksOf_descendants hb hexpression]
    convert (hcomments.append woven).append hrest using 1
    · rw [← hsilent]
      rfl
    · rw [← b.comments_eq]
      rfl

end NeighboursMatch

/-! ## Blocks -/

/-- A block that is compiled like the one without comments. -/
def BlockMatches (o : Options) (b : Block) : Prop :=
  ∀ plugged, Matches (CodeCommented o.commentWidth b plugged)
    ((Compiler.bare o).block b.hushed false plugged) ((Compiler.bare o).block b false plugged)

theorem matches_plug {code₀ code : Code} (h : CodeCommented width b true code₀ code)
    (hnext : b.IsExpression → b.next = none) (kind : String) (outer : Order) :
    Matches (· = ·) (Compiler.plug kind outer code₀) (Compiler.plug kind outer code) := by
  cases h with
  | value expression eq =>
    rw [eq rfl (hnext expression)]
    exact .self _
  | statement _ ne₀ ne =>
    -- No statement is without text, with comments or without, so both end in the same error.
    simp only [Compiler.plug, beq_iff_eq, if_neg ne₀, if_neg ne]
    exact .throw _

/-- A chain of statements that may be missing. -/
theorem matches_chain {b? : Option Block} (h : ∀ t, b? = some t → BlockMatches o t) :
    Matches (fun s₀ s ↦ (s₀ = "" → s = "") ∧ (∀ t, b? = some t → ¬ t.IsExpression) ∧
        Woven remarkLine (remarksOf o.commentWidth ((b?.map Block.descendants).getD [])) s₀ s)
      ((Compiler.bare o).chain (b?.map Block.hushed)) ((Compiler.bare o).chain b?) := by
  cases b? with
  | none => exact .pure ⟨id, nofun, .empty⟩
  | some t =>
    refine (h t rfl false).bind fun code₀ code hcode ↦ ?_
    rw [Block.hushed_head]
    cases hcode with
    | value => exact .throw _
    | statement expression ne₀ ne woven =>
      refine .pure ⟨fun heq ↦ absurd heq ne₀, ?_, woven rfl⟩
      rintro _ ⟨⟩
      exact expression

theorem matches_value (hb : b.WellConnected)
    (htargets : ∀ input t, b.target? input = some t → BlockMatches o t) (input : String)
    (outer : Order) : Matches (· = ·) ((Compiler.bare o).value b.hushed input outer)
      ((Compiler.bare o).value b input outer) := by
  rw [Compiler.value, Compiler.value, Block.hushed_target?]
  cases ht : b.target? input with
  | none => exact .pure rfl
  | some t =>
    refine (htargets input t ht true).bind fun code₀ code hcode ↦ ?_
    rw [Block.hushed_head]
    exact matches_plug hcode (hb.next_eq_none ht) _ _

theorem matches_body (hindent : ∀ c ∈ o.indent.toList, Text.isGap c) (hb : b.WellConnected)
    (htargets : ∀ input t, b.target? input = some t → BlockMatches o t) (input : String) :
    Matches (Woven remarkLine (remarksOf o.commentWidth (b.bodyTree input)))
      ((Compiler.bare o).body b.hushed input) ((Compiler.bare o).body b input) := by
  have hchain := matches_chain (htargets input)
  rw [← Block.hushed_target?] at hchain
  refine hchain.bind fun s₀ s h ↦ ?_
  obtain ⟨hempty, hexpression, hwoven⟩ := h
  rw [hb.bodyTree_eq hexpression]
  -- An empty body is not indented, and there are no comments without a statement.
  by_cases hs₀ : s₀ = ""
  · obtain rfl := hempty hs₀
    rw [hs₀] at hwoven ⊢
    exact .pure hwoven
  · refine .pure ?_
    rw [if_neg (by simpa using hs₀), if_neg (by simpa using hwoven.ne_empty hs₀)]
    exact hwoven.indent hindent hs₀

/-- What is around a block does the same if every connected block does. -/
theorem neighboursMatch (hindent : ∀ c ∈ o.indent.toList, Text.isGap c) (hb : b.WellConnected)
    (htargets : ∀ input t, b.target? input = some t → BlockMatches o t)
    (hnext : ∀ t, b.next = some t → BlockMatches o t) : NeighboursMatch o b where
  value := matches_value hb htargets
  body := matches_body hindent hb htargets
  following := by
    rw [Block.hushed_next]
    exact (matches_chain hnext).mono fun _ _ hrest ↦ hrest.2.2

/-- By induction on the block: it is compiled like the one without comments. -/
theorem matches_block (hindent : ∀ c ∈ o.indent.toList, Text.isGap c)
    (hb : ∀ d ∈ b.descendants, d.WellConnected ∧ d.head.enabled ∧ ¬ d.head.isDefinition) :
    BlockMatches o b := by
  induction b using Block.induct_target with
  | step b htargets hnext =>
    obtain ⟨hconnected, henabled, hdefinition⟩ := hb b b.self_mem_descendants
    have hneighbours : NeighboursMatch o b := neighboursMatch hindent hconnected
      (fun input t ht ↦ htargets input t ht (Block.forall_of_target hb ht))
      fun t ht ↦ hnext t ht (Block.forall_of_next hb ht)
    intro plugged
    rw [Compiler.block_eq, Compiler.block_eq, Block.hushed_head, if_pos henabled, if_pos henabled]
    cases he : (Compiler.bare o).emitter? b.head.kind with
    | none => exact .throw _
    | some e =>
      refine (hneighbours.emit hconnected he hdefinition).bind fun _ _ hemission ↦ ?_
      have hsettle := hneighbours.settle (fun d hd ↦ (hb d hd).1) he hemission plugged
      rwa [Block.hushed_head] at hsettle

end Turtle

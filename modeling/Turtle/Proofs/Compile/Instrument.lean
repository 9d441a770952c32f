import Turtle.Proofs.Compile.Heading
import Turtle.Proofs.Emitter.Growth

/-!
# Blocks with snippets

Compiled with snippets, a block does what it does without them, and its code grows by the snippets
that fire for it and for the blocks below and behind it.  This holds by induction on the block as
long as no procedure is defined in it and no block in it is a top block.
-/

namespace Turtle

open Logo (Order)

variable {snippet marker : Site → String} {o : Options} {w : Workspace} {b : Block}

/-- What stands before a block has nothing woven in. -/
theorem woven_comments {M : Type} (line : M → List Char) (width : Nat) (b : Block) :
    Woven line 0 (b.comments width) (b.comments width) := by
  have hlines := (congrArg String.toList (b.comments_eq width)).trans (toList_remarks _)
  have hnewline := forall_notMem_remarks fun line (h : line ∈ b.commentLines width) ↦
    Block.notMem_of_mem_commentLines h
  exact ⟨_, _, hlines, hlines, hnewline, hnewline, .refl _⟩

/-- A block that stands below or behind a top block. -/
structure Block.IsInner (w : Workspace) (b : Block) : Prop where
  id : '\n' ∉ b.head.id.toList
  definition : ¬ b.head.isDefinition
  next : b.next.isSome → Emitter.shape? b.head.kind = some .statement
  inner : b.head.id ∉ w.topBlocks.map (·.head.id)

/-- The code of blocks, side by side. -/
inductive BlockGrown (snippet : Site → String) (o : Options) (w : Workspace) (blocks : List Block)
    (events : List Event) : Code → Code → Prop
  | value {code : String} {order : Order} (silent : firings o w events = []) :
    BlockGrown snippet o w blocks events (.value code order) (.value code order)
  | statement {s₀ s : String} (grown : Grown snippet o w blocks events s₀ s) :
    BlockGrown snippet o w blocks events (.statement s₀) (.statement s)

/-- The code of an enabled block, side by side. -/
inductive EmittedGrown (snippet : Site → String) (o : Options) (w : Workspace) (b : Block)
    (plugged : Bool) (events : List Event) : Code → Code → Prop
  | value {e : Emitter} {below : List Event} {log : List Exchange} {code : String} {order : Order}
    (emitter : Emitter.standard? b.head.kind = some e) (shape : e.shape = .value)
    (manual : e.manual = false) (silent : firings o w below = [])
    (eq : events = below ++ [.emitted b log (.value code order)]) :
    EmittedGrown snippet o w b plugged events
      (.value ((if plugged then "" else b.comments o.commentWidth) ++ code) order)
      (.value ((if plugged then "" else b.comments o.commentWidth) ++ code) order)
  | statement {e : Emitter} {s₀ s : String} (emitter : Emitter.standard? b.head.kind = some e)
    (shape : e.shape = .statement) (ne : s₀ ≠ "")
    (grown : Grown snippet o w b.descendants events s₀ s) :
    EmittedGrown snippet o w b plugged events (.statement s₀) (.statement s)

namespace Compiler

/-- A block with nothing behind it. -/
theorem finish_last (c : Compiler) (hnext : b.next = none) (plugged : Bool) (code : String) :
    c.finish b false plugged code =
      pure ((if plugged then "" else b.comments c.options.commentWidth) ++ code) := by
  rw [finish_eq, hnext]
  simp [chain]

/-- What happens while a block is emitted whose recipe goes well. -/
theorem emitTrace_eq {c : Compiler} {e : Emitter} {alone : Bool} {t : Traces} {p q : Pass}
    {emission : Emission} (he : c.emitter? b.head.kind = some e)
    (hrun : (e.emit (c.view e b)).run c.options.indent (c.neighbours b) p = .ok emission q) :
    c.emitTrace b alone t p =
      (e.emit (c.view e b)).trace c.options.indent (c.neighbours b) t b p ++
        .emitted b ((e.emit (c.view e b)).log c.options.indent (c.neighbours b) p) emission ::
          settleTrace alone t.following emission q := by
  simp only [emitTrace, he, EStateM.run, hrun]

end Compiler

/-- The code of a block put together: its comments, its code and what is behind it. -/
theorem Grown.finish {e : Emitter} {below following : List Event} {log : List Exchange}
    {code₀ code rest₀ rest : String} (plugged : Bool)
    (hcode : EmissionGrown snippet o w b e below (.statement code₀) (.statement code))
    (hrest : Grown snippet o w b.behind following rest₀ rest) :
    Grown snippet o w b.descendants (below ++ .emitted b log (.statement code) :: following)
      ((if plugged then "" else b.comments o.commentWidth) ++ code₀ ++ rest₀)
      ((if plugged then "" else b.comments o.commentWidth) ++
        (if e.manual then code else (o.fitted snippet).surround b.head.id code) ++ rest) := by
  cases hcode with
  | statement shape ne woven within =>
    have hcomments : Woven (snippetLine snippet) 0
        (if plugged then "" else b.comments o.commentWidth)
        (if plugged then "" else b.comments o.commentWidth) := by
      split
      · exact .empty
      · exact woven_comments _ _ _
    have hfirings : firings o w (below ++ .emitted b log (.statement code) :: following) =
        firings o w below ++ ([⟨b, statementSites b.head.kind⟩] ++ firings o w following) := by
      rw [firings_append, firings_statement]
      rfl
    refine ⟨?_, fun heq ↦ ?_, ?_⟩
    · rw [hfirings, Firing.allMarks_append, Firing.allMarks_append, Firing.allMarks_singleton]
      convert (hcomments.append woven).append hrest.woven using 1
      abel
    · simp [ne] at heq
    · have hle := add_le_add (add_le_add (le_refl ({b} : Multiset Block)) within) hrest.within
      rw [hfirings, b.descendants_eq_append, List.map_append, List.map_append, ← Multiset.coe_add,
        ← Multiset.coe_add]
      convert hle using 1
      · simp only [List.map_cons, List.map_nil, Multiset.coe_singleton]
        abel
      · rfl

section

variable (h : NeighboursSimulate snippet o w b) (hmarked : Marked snippet marker)
  (hindent : ∀ c ∈ o.indent.toList, Text.isGap c)
include h hmarked hindent

omit hmarked hindent in
/-- What becomes of an emission, with the comments of the block and what is behind it. -/
theorem simulates_settle {below : List Event} {emission₀ emission : Emission}
    (hgrown : EmissionGrown snippet o w b e below emission₀ emission)
    (he : Emitter.standard? b.head.kind = some e)
    (hnext : b.next.isSome → Emitter.shape? b.head.kind = some .statement) (plugged : Bool)
    (log : List Exchange) : Simulates (snippetLine snippet)
      ((Compiler.bare o).settle e b.head ((Compiler.bare o).finish b false plugged) emission₀)
      ((Compiler.fitted o snippet).settle e b.head
        ((Compiler.fitted o snippet).finish b false plugged) emission)
      (Compiler.settleTrace false ((Compiler.fitted o snippet).traces b).following emission)
      fun following ↦ EmittedGrown snippet o w b plugged
        (below ++ .emitted b log emission :: following) := by
  cases hgrown with
  | value shape manual silent =>
    have hlast : b.next = none := by
      rw [← Option.not_isSome_iff_eq_none]
      intro hsome
      have hshape := hnext hsome
      rw [Emitter.shape?_of_standard? he, shape] at hshape
      cases hshape
    rw [Compiler.settle_value _ shape, Compiler.finish_last _ hlast, Compiler.settle_value _ shape,
      Compiler.finish_last _ hlast, pure_bind, pure_bind]
    have hfollowing : ((Compiler.fitted o snippet).traces b).following = fun _ ↦ [] := by
      rw [Compiler.traces, hlast]
      rfl
    refine .pure fun p ↦ ?_
    rw [Compiler.settleTrace, hfollowing]
    exact .value he shape manual silent rfl
  | @statement code₀ code shape ne woven within =>
    have hplain : (if e.manual then code₀ else
        (Compiler.bare o).options.surround b.head.id code₀) = code₀ := by
      rw [Options.surround_bare, ite_self]
    simp only [Compiler.settle, hplain, Compiler.finish_eq, bind_assoc, pure_bind]
    refine h.following.bind fun following rest₀ rest hrest ↦ .pure fun _ ↦ ?_
    refine .statement he shape (by simp [ne]) ?_
    exact Grown.finish plugged (.statement shape ne woven within) hrest

/-- An enabled block that defines no procedure. -/
theorem simulates_enabled (henabled : b.head.enabled) (hid : '\n' ∉ b.head.id.toList)
    (hdefinition : ¬ b.head.isDefinition)
    (hnext : b.next.isSome → Emitter.shape? b.head.kind = some .statement) (plugged : Bool) :
    Simulates (snippetLine snippet) ((Compiler.bare o).block b false plugged)
      ((Compiler.fitted o snippet).block b false plugged)
      ((Compiler.fitted o snippet).trace b false) (EmittedGrown snippet o w b plugged) := by
  rw [Compiler.block_eq, Compiler.block_eq, if_pos henabled, if_pos henabled]
  cases he : Emitter.standard? b.head.kind with
  | none =>
    rw [show (Compiler.bare o).emitter? b.head.kind = none from he]
    exact .throw
  | some e =>
    have hemit := h.emit hmarked hindent hid he hdefinition
    rw [show (Compiler.bare o).emitter? b.head.kind = some e from he]
    constructor
    · intro keys ms p₀ p q₀ code₀ hp h₀
      obtain ⟨emission₀, r₀, hrun₀, hsettle₀⟩ := PassM.of_bind_ok h₀
      obtain ⟨emission, r, hrun, hr, hgrown⟩ := hemit.ok hp hrun₀
      obtain ⟨code, q, hsettle, hq, hemitted⟩ :=
        (simulates_settle h hgrown he hnext plugged _).ok hr hsettle₀
      refine ⟨code, q, (PassM.bind_ok hrun _).trans hsettle, hq, ?_⟩
      rw [Compiler.trace_eq, if_pos henabled, Compiler.emitTrace_eq he hrun]
      exact hemitted
    · intro keys ms p₀ p q₀ error hp h₀
      rcases PassM.of_bind_error h₀ with hrun₀ | ⟨emission₀, r₀, hrun₀, hsettle₀⟩
      · obtain ⟨q, hrun⟩ := hemit.error hp hrun₀
        exact ⟨q, PassM.bind_error hrun _⟩
      · obtain ⟨emission, r, hrun, hr, hgrown⟩ := hemit.ok hp hrun₀
        obtain ⟨q, hsettle⟩ := (simulates_settle h hgrown he hnext plugged []).error hr hsettle₀
        exact ⟨q, (PassM.bind_ok hrun _).trans hsettle⟩

end

/-! ## Neighbours -/

/-- A block that is connected somewhere does the same side by side. -/
def BlockSimulates (snippet : Site → String) (o : Options) (w : Workspace) (b : Block) : Prop :=
  ∀ plugged, Simulates (snippetLine snippet) ((Compiler.bare o).block b false plugged)
    ((Compiler.fitted o snippet).block b false plugged)
    ((Compiler.fitted o snippet).trace b false) (BlockGrown snippet o w b.descendants)

section

variable {M : Type} {line : M → List Char} {blocks : List Block} {events : List Event}
  {code₀ code : Code}

theorem simulates_plug (h : BlockGrown snippet o w blocks events code₀ code) (kind : String)
    (outer : Order) : Simulates line (Compiler.plug kind outer code₀)
      (Compiler.plug kind outer code) (fun _ ↦ ()) fun _ s₀ s ↦
        s = s₀ ∧ firings o w events = [] := by
  cases h with
  | value silent => exact .pure fun _ ↦ ⟨rfl, silent⟩
  | @statement s₀ s grown =>
    simp only [Compiler.plug]
    by_cases hs₀ : s₀ = ""
    · rw [if_pos (by simpa using hs₀), if_pos (by simpa using grown.eq_empty hs₀)]
      exact .pure fun _ ↦ ⟨rfl, grown.silent hs₀⟩
    · rw [if_neg (by simpa using hs₀), if_neg (by simpa using grown.woven.ne_empty hs₀)]
      exact .throw

theorem simulates_link (h : BlockGrown snippet o w blocks events code₀ code) (kind : String) :
    Simulates line (Compiler.link kind code₀) (Compiler.link kind code) (fun _ ↦ ()) fun _ ↦
      Grown snippet o w blocks events := by
  cases h with
  | value silent => exact .throw
  | statement grown => exact .pure fun _ ↦ grown

/-- A block that may be missing. -/
theorem simulates_chain {b? : Option Block}
    (h : ∀ t, b? = some t → BlockSimulates snippet o w t) :
    Simulates (snippetLine snippet) ((Compiler.bare o).chain b?)
      ((Compiler.fitted o snippet).chain b?) ((Compiler.fitted o snippet).trace? b?)
      (Grown snippet o w ((b?.map Block.descendants).getD [])) := by
  cases b? with
  | none => exact .pure fun _ ↦ .empty
  | some t => exact (h t rfl false).bind fun events _ _ hgrown ↦ simulates_link hgrown t.head.kind

end

/-- What is around a block does the same if every connected block does. -/
theorem neighboursSimulate
    (htargets : ∀ input t, b.target? input = some t → BlockSimulates snippet o w t)
    (hnext : ∀ t, b.next = some t → BlockSimulates snippet o w t) :
    NeighboursSimulate snippet o w b := by
  refine ⟨fun input outer ↦ ?_, fun input ↦ ?_, simulates_chain hnext⟩
  · change Simulates _ _ _ ((Compiler.fitted o snippet).trace? (b.target? input)) _
    rw [Compiler.value, Compiler.value]
    cases ht : b.target? input with
    | none => exact .pure fun _ ↦ ⟨rfl, rfl⟩
    | some t =>
      exact (htargets input t ht true).bind fun events _ _ hgrown ↦
        simulates_plug hgrown t.head.kind outer
  · rw [Block.under_eq]
    exact simulates_chain (htargets input)

theorem BlockGrown.mono {blocks blocks' : List Block} {events : List Event} {code₀ code : Code}
    (h : BlockGrown snippet o w blocks events code₀ code)
    (hblocks : (↑blocks : Multiset Block) ≤ ↑blocks') :
    BlockGrown snippet o w blocks' events code₀ code := by
  cases h with
  | value silent => exact .value silent
  | statement grown =>
    exact .statement ⟨grown.woven, grown.silent, grown.within.trans hblocks⟩

theorem Block.behind_le (b : Block) : (↑b.behind : Multiset Block) ≤ ↑b.descendants :=
  Multiset.coe_le.2 (b.descendants_eq_append ▸ (List.sublist_append_right _ _).subperm)

/-- A disabled block gives way to the next one. -/
theorem simulates_disabled (henabled : ¬ b.head.enabled)
    (hnext : ∀ t, b.next = some t → BlockSimulates snippet o w t) :
    BlockSimulates snippet o w b := by
  intro plugged
  have htrace : (Compiler.fitted o snippet).trace b false =
      (Compiler.fitted o snippet).trace? b.next := by
    funext p
    rw [Compiler.trace_eq, if_neg henabled]
    rfl
  rw [htrace, Compiler.block_eq, Compiler.block_eq, if_neg henabled, if_neg henabled]
  cases h : b.next with
  | none => exact .pure fun _ ↦ .statement ⟨.empty, fun _ ↦ rfl, Multiset.zero_le _⟩
  | some next =>
    refine (hnext next h plugged).mono fun _ _ _ hgrown ↦ hgrown.mono ?_
    have hle := b.behind_le
    rwa [Block.behind, h] at hle

/-- What is connected to an enabled block below a top block grows as the block does. -/
theorem EmittedGrown.blockGrown {plugged : Bool} {events : List Event} {code₀ code : Code}
    (h : EmittedGrown snippet o w b plugged events code₀ code)
    (hb : b.head.id ∉ w.topBlocks.map (·.head.id)) :
    BlockGrown snippet o w b.descendants events code₀ code := by
  cases h with
  | @value e below log code order emitter shape manual silent eq =>
    refine .value ?_
    rw [eq, firings_append, firings_value hb, silent]
    rfl
  | statement emitter shape ne grown => exact .statement grown

section

variable (hmarked : Marked snippet marker) (hindent : ∀ c ∈ o.indent.toList, Text.isGap c)
include hmarked hindent

/-- A block that stands below or behind a top block. -/
theorem simulates_block (b : Block) (hb : ∀ d ∈ b.descendants, d.IsInner w) :
    BlockSimulates snippet o w b := by
  induction b using Block.induct_target with
  | step b htargets hnext =>
    have hbehind (t : Block) (ht : b.next = some t) : BlockSimulates snippet o w t :=
      hnext t ht (Block.forall_of_next hb ht)
    have hneighbours : NeighboursSimulate snippet o w b := neighboursSimulate
      (fun input t ht ↦ htargets input t ht (Block.forall_of_target hb ht)) hbehind
    have hself : b.IsInner w := hb b b.self_mem_descendants
    by_cases henabled : b.head.enabled
    · intro plugged
      refine (simulates_enabled hneighbours hmarked hindent henabled hself.id hself.definition
        hself.next plugged).mono fun _ _ _ hgrown ↦ hgrown.blockGrown hself.inner
    · exact simulates_disabled henabled hbehind

/-- What is around a block below or behind which no block is a top block. -/
theorem neighboursSimulate_of_strict (hb : ∀ d ∈ b.strict, d.IsInner w) :
    NeighboursSimulate snippet o w b := neighboursSimulate
  (fun _ t ht ↦ simulates_block hmarked hindent t fun d hd ↦
    hb d (Block.subset_strict_of_target ht hd))
  fun t ht ↦ simulates_block hmarked hindent t fun d hd ↦
    hb d (Block.subset_strict_of_next ht hd)

end

end Turtle

import Turtle.Proofs.Compile.Instrument

/-!
# Top blocks with snippets

A top block leaves a part of the program, or a definition, or nothing.  With snippets it leaves the
same, and the snippets that fire for the block and for the blocks below and behind it are woven into
what it leaves.
-/

namespace Turtle

open Recipe

variable {snippet marker : Site → String} {o : Options} {w : Workspace} {b : Block}

/-! ## Parts -/

/-- The part of a top block, side by side. -/
inductive PartWoven {M : Type} (line : M → List Char) : Multiset M → String → String → Prop
  | none : PartWoven line 0 "" ""
  | some {ms : Multiset M} {s₀ s : String} (ne₀ : s₀ ≠ "") (ne : s ≠ "")
    (woven : Woven line ms (s₀ ++ "\n") (s ++ "\n")) : PartWoven line ms s₀ s

theorem PartWoven.refl {M : Type} {line : M → List Char} (s : String) : PartWoven line 0 s s := by
  by_cases hs : s = ""
  · rw [hs]
    exact .none
  · exact .some hs hs (.same s)

/-- What an ordinary top block leaves. -/
structure PartGrown (snippet : Site → String) (o : Options) (w : Workspace) (b : Block)
    (events : List Event) (s₀ s : String) : Prop where
  woven : PartWoven (snippetLine snippet) (Firing.allMarks (firings o w events)) s₀ s
  within : (↑((firings o w events).map (·.block)) : Multiset Block) ≤ ↑b.descendants

/-- The code of statements as a part. -/
theorem Grown.part {events : List Event} {s₀ s : String}
    (h : Grown snippet o w b.descendants events s₀ s) : PartGrown snippet o w b events s₀ s := by
  refine ⟨?_, h.within⟩
  by_cases hs₀ : s₀ = ""
  · rw [h.silent hs₀, Firing.allMarks_nil, hs₀, h.eq_empty hs₀]
    exact .none
  · exact .some hs₀ (h.woven.ne_empty hs₀) h.woven.concat

namespace Compiler

/-- The text of the code of a block. -/
theorem topBlock_eq (c : Compiler) (b : Block) : c.topBlock b =
    c.block b false false >>= fun code ↦ match code with
      | .statement code | .value code _ => pure (c.topLine b.head code) := rfl

theorem topLine_statement {c : Compiler} {e : Emitter} {head : Head}
    (he : c.emitter? head.kind = some e) (hshape : e.shape = .statement) (code : String) :
    c.topLine head code = code := by
  rw [topLine, he]
  simp only [hshape, reduceCtorEq, if_false]
  split
  case isTrue h => exact (beq_iff_eq.1 h).symm
  case isFalse => rfl

theorem topLine_value {c : Compiler} {e : Emitter} {head : Head}
    (he : c.emitter? head.kind = some e) (hshape : e.shape = .value) (hmanual : e.manual = false)
    {code : String} (hcode : code ≠ "") :
    c.topLine head code = c.options.surround head.id (ignoreValue code) := by
  rw [topLine, he, if_neg (by simpa using hcode)]
  simp only [hshape, hmanual, if_true, Bool.false_eq_true, if_false]

end Compiler

/-- A block that stands at the top. -/
structure Block.IsTop (w : Workspace) (b : Block) : Prop where
  id : '\n' ∉ b.head.id.toList
  next : b.next.isSome → Emitter.shape? b.head.kind = some .statement ∧ ¬ b.head.isDefinition
  top : b.head.id ∈ w.topBlocks.map (·.head.id)
  strict : ∀ d ∈ b.strict, d.IsInner w

theorem surround_ne_empty (o : Options) (id : String) {code : String} (hcode : code ≠ "") :
    o.surround id code ≠ "" := by
  simp [Options.surround, hcode]

theorem Block.IsTop.next_eq_none (hb : b.IsTop w) (hdefinition : b.head.isDefinition) :
    b.next = none := by
  rw [← Option.not_isSome_iff_eq_none]
  exact fun hsome ↦ (hb.next hsome).2 hdefinition

section

variable (hmarked : Marked snippet marker) (hindent : ∀ c ∈ o.indent.toList, Text.isGap c)
include hmarked

/-- An expression at the top, whose result is ignored. -/
theorem partGrown_value (hb : b.IsTop w) {e : Emitter}
    (he : Emitter.standard? b.head.kind = some e) (hshape : e.shape = .value)
    (hmanual : e.manual = false) {below : List Event} (hbelow : firings o w below = [])
    (log : List Exchange) (code : String) (order : Logo.Order) :
    PartGrown snippet o w b (below ++ [.emitted b log (.value code order)])
      ((Compiler.bare o).topLine b.head (b.comments o.commentWidth ++ code))
      ((Compiler.fitted o snippet).topLine b.head (b.comments o.commentWidth ++ code)) := by
  have hfirings : firings o w (below ++ [.emitted b log (.value code order)]) =
      [⟨b, w.sites o b log (.value code order)⟩] := by
    rw [firings_append, hbelow, firings_value_top hb.top]
    rfl
  refine ⟨?_, ?_⟩
  · rw [hfirings]
    by_cases hcode : b.comments o.commentWidth ++ code = ""
    · rw [hcode, Workspace.sites, if_neg (fun h ↦ h.2 hcode)]
      exact .none
    · have hmarks : Firing.allMarks [⟨b, w.sites o b log (.value code order)⟩] =
          {⟨.before, b.head.id⟩} + 0 + {⟨.after, b.head.id⟩} := by
        rw [Workspace.sites, if_pos ⟨hb.top, hcode⟩]
        rfl
      have hignored : ignoreValue (b.comments o.commentWidth ++ code) ≠ "" := by
        simp [ignoreValue]
      rw [hmarks, Compiler.topLine_value he hshape hmanual hcode,
        Compiler.topLine_value he hshape hmanual hcode]
      refine .some (surround_ne_empty _ _ hignored) (surround_ne_empty _ _ hignored) ?_
      exact (hmarked.woven_surround hb.id (.same _)).concat
  · rw [hfirings, b.descendants_eq_append]
    exact Multiset.singleton_le.2 List.mem_cons_self

include hindent

/-- A top block that leaves no definition. -/
theorem simulates_topBlock (hb : b.IsTop w) (hdefinition : b.head.enabled → ¬ b.head.isDefinition) :
    Simulates (snippetLine snippet) ((Compiler.bare o).topBlock b)
      ((Compiler.fitted o snippet).topBlock b) ((Compiler.fitted o snippet).trace b false)
      (PartGrown snippet o w b) := by
  rw [Compiler.topBlock_eq, Compiler.topBlock_eq]
  by_cases henabled : b.head.enabled
  · have hneighbours := neighboursSimulate_of_strict hmarked hindent hb.strict
    refine (simulates_enabled hneighbours hmarked hindent henabled hb.id (hdefinition henabled)
      (fun hsome ↦ (hb.next hsome).1) false).bind fun events code₀ code hgrown ↦ ?_
    cases hgrown with
    | value emitter shape manual silent eq =>
      refine .pure fun _ ↦ ?_
      rw [eq]
      exact partGrown_value hmarked hb emitter shape manual silent _ _ _
    | statement emitter shape ne grown =>
      refine .pure fun _ ↦ ?_
      rw [Compiler.topLine_statement emitter shape, Compiler.topLine_statement emitter shape]
      exact grown.part
  · cases hnext : b.next with
    | none =>
      rw [Compiler.block_eq, Compiler.block_eq, if_neg henabled, if_neg henabled, hnext]
      refine .pure fun p ↦ ?_
      rw [Compiler.trace_eq, if_neg henabled, hnext]
      exact ⟨.none, Multiset.zero_le _⟩
    | some next =>
      obtain ⟨e, he, hshape⟩ := Option.map_eq_some_iff.1 (hb.next (by rw [hnext]; rfl)).1
      refine (simulates_disabled henabled (fun t ht ↦
        simulates_block hmarked hindent t fun d hd ↦
          hb.strict d (Block.subset_strict_of_next ht hd)) false).bind fun events _ _ hgrown ↦ ?_
      cases hgrown with
      | @value code order silent =>
        refine .pure fun _ ↦ ?_
        rw [Compiler.topLine_statement he hshape, Compiler.topLine_statement he hshape]
        refine ⟨?_, by rw [silent]; exact Multiset.zero_le _⟩
        rw [silent, Firing.allMarks_nil]
        exact .refl code
      | statement grown =>
        refine .pure fun _ ↦ ?_
        rw [Compiler.topLine_statement he hshape, Compiler.topLine_statement he hshape]
        exact grown.part

end

/-! ## Definitions -/

/-- A definition asks for its name first and is registered last, which makes no difference to its
snippets. -/
theorem definitionSites_whole (name chosen code whole : String) (log : List Exchange) :
    definitionSites (.answered (.procedure name) chosen :: (log ++ [.hoisted chosen code whole])) =
      definitionSites log := by
  simp [definitionSites, Exchange.answers]

theorem Recipe.run_procedureName {p p' : Pass} {name chosen : String}
    (h : p.name .procedure name = (chosen, p')) (indent : String) (n : Neighbours) :
    (procedureName name).run indent n p = .ok chosen p' := by
  change EStateM.Result.ok (p.name .procedure name).1 (p.name .procedure name).2 = _
  rw [h]

namespace Compiler

section

variable {c : Compiler} {v : View} {p p' q : Pass} {chosen code : String}
  (hname : p.name .procedure (v.field "NAME") = (chosen, p')) (hnext : b.next = none)
  (h : (Emitter.definitionCode v chosen).run c.options.indent (c.neighbours b) p' = .ok code q)
include hname hnext h

/-- The recipe of a definition goes well if its text does. -/
theorem run_definition :
    ((Emitter.definition Emitter.definitionOf).emit v).run c.options.indent (c.neighbours b) p =
      .ok .hoisted (q.define chosen (b.comments c.options.commentWidth ++ code)) := by
  have hfinish : (c.neighbours b).finish code = pure (b.comments c.options.commentWidth ++ code) :=
    finish_last c hnext false code
  have hask := run_procedureName hname c.options.indent (c.neighbours b)
  rw [Emitter.emit_definition, run_bind, PassM.bind_ok hask, run_bind, PassM.bind_ok h, run,
    hfinish]
  rfl

/-- What fires while a procedure is defined. -/
theorem trace_definition :
    let recipe := (Emitter.definition Emitter.definitionOf).emit v
    let text := Emitter.definitionCode v chosen
    firings o w (recipe.trace c.options.indent (c.neighbours b) (c.traces b) b p) =
        firings o w (text.trace c.options.indent (c.neighbours b) (c.traces b) b p') ∧
      definitionSites (recipe.log c.options.indent (c.neighbours b) p) =
        definitionSites (text.log c.options.indent (c.neighbours b) p') := by
  have hfinish : (c.neighbours b).finish code q =
      .ok (b.comments c.options.commentWidth ++ code) q :=
    congrFun (finish_last c hnext false code) q
  have hask := run_procedureName hname c.options.indent (c.neighbours b)
  have hfollowing : (c.traces b).following = fun _ ↦ [] := by
    rw [traces, hnext]
    rfl
  dsimp only
  rw [Emitter.emit_definition]
  constructor
  · rw [trace_bind _ _ hask, trace_bind _ _ h, Recipe.trace]
    simp only [EStateM.run, hfinish, hfollowing, firings_append, List.nil_append]
    exact List.append_nil _
  · rw [log_bind _ _ hask, log_bind _ _ h, Recipe.log]
    simp only [EStateM.run, hfinish]
    exact definitionSites_whole (v.field "NAME") _ _ _ _

end

/-- What a definition is written from. -/
abbrev definitionView (c : Compiler) (b : Block) : View :=
  c.view (.definition Emitter.definitionOf) b

section

variable {c : Compiler} (hc : c.emitter? = Emitter.standard?) (henabled : b.head.enabled)
  (hdefinition : b.head.isDefinition)
include hc henabled hdefinition

theorem block_definition (alone plugged : Bool) : c.block b alone plugged =
    ((Emitter.definition Emitter.definitionOf).emit (c.definitionView b)).run c.options.indent
        (c.neighbours b) >>= c.settle (.definition Emitter.definitionOf) b.head
          (c.finish b alone plugged) := by
  refine c.block_of_emitter henabled ?_ alone plugged
  rw [hc, Emitter.standard?_of_isDefinition hdefinition]

/-- A definition leaves no part, but its text is registered. -/
theorem topBlock_definition (hnext : b.next = none) (p : Pass) : c.topBlock b p =
    ((Emitter.definitionCode (c.definitionView b) (p.name .procedure (b.head.field "NAME")).1).run
        c.options.indent (c.neighbours b) >>= fun code ↦
      modify (·.define (p.name .procedure (b.head.field "NAME")).1
        (b.comments c.options.commentWidth ++ code)) >>= fun _ ↦ pure "")
      (p.name .procedure (b.head.field "NAME")).2 := by
  have hask : (procedureName (b.head.field "NAME")).run c.options.indent (c.neighbours b) p =
      .ok _ _ := run_procedureName rfl _ _
  have hfinish (code : String) : (c.neighbours b).finish code =
      pure (b.comments c.options.commentWidth ++ code) := finish_last c hnext false code
  rw [topBlock_eq, block_definition hc henabled hdefinition, Emitter.emit_definition, run_bind]
  simp only [bind_assoc]
  rw [show (c.definitionView b).field "NAME" = b.head.field "NAME" from rfl, PassM.bind_ok hask,
    run_bind, bind_assoc]
  refine congrFun (congrArg _ (funext fun code ↦ ?_)) _
  rw [Recipe.run, hfinish, pure_bind]
  rfl

/-- A definition asks for the identifier of its name. -/
theorem exchange_mem_trace_definition (hnext : b.next = none) {p q : Pass} {part : String}
    (h : c.topBlock b p = .ok part q) :
    .exchange b (.answered (.procedure (b.head.field "NAME"))
      (p.name .procedure (b.head.field "NAME")).1) ∈ c.trace b false p := by
  rw [topBlock_definition hc henabled hdefinition hnext] at h
  obtain ⟨code, r, hcode, -⟩ := PassM.of_bind_ok h
  have hrun := run_definition (v := c.definitionView b) rfl hnext hcode
  have he : c.emitter? b.head.kind = some (.definition Emitter.definitionOf) := by
    rw [hc, Emitter.standard?_of_isDefinition hdefinition]
  have hask : (procedureName (b.head.field "NAME")).run c.options.indent (c.neighbours b) p =
      .ok _ _ := run_procedureName rfl _ _
  rw [trace_eq, if_pos henabled, emitTrace_eq he hrun, Emitter.emit_definition]
  refine List.mem_append_left _ ?_
  rw [show (c.definitionView b).field "NAME" = b.head.field "NAME" from rfl, trace_bind _ _ hask]
  exact List.mem_append_left _ (List.mem_append_right _ List.mem_cons_self)

/-- What fires while a procedure is defined: what does for its text, and the definition. -/
theorem firings_trace_definition (hnext : b.next = none) {p q : Pass} {code : String}
    (h : (Emitter.definitionCode (c.definitionView b)
      (p.name .procedure (b.head.field "NAME")).1).run c.options.indent (c.neighbours b)
        (p.name .procedure (b.head.field "NAME")).2 = .ok code q) :
    let text := Emitter.definitionCode (c.definitionView b)
      (p.name .procedure (b.head.field "NAME")).1
    let p' := (p.name .procedure (b.head.field "NAME")).2
    firings o w (c.trace b false p) =
      firings o w (text.trace c.options.indent (c.neighbours b) (c.traces b) b p') ++
        [⟨b, definitionSites (text.log c.options.indent (c.neighbours b) p')⟩] := by
  have hrun := run_definition (v := c.definitionView b) rfl hnext h
  obtain ⟨htrace, hlog⟩ := trace_definition (o := o) (w := w) (v := c.definitionView b) rfl hnext h
  have he : c.emitter? b.head.kind = some (.definition Emitter.definitionOf) := by
    rw [hc, Emitter.standard?_of_isDefinition hdefinition]
  intro text p'
  rw [trace_eq, if_pos henabled, emitTrace_eq he hrun, firings_append, htrace, firings_hoisted,
    hlog]
  rfl

end

end Compiler

section

variable (hmarked : Marked snippet marker) (hindent : ∀ c ∈ o.indent.toList, Text.isGap c)
include hmarked hindent

/-- A top block that defines a procedure which was not defined before. -/
theorem tracks_definition (hb : b.IsTop w) (henabled : b.head.enabled)
    (hdefinition : b.head.isDefinition) {keys : List String} {ms : Multiset Mark} {p₀ p : Pass}
    (hp : Tracks (snippetLine snippet) keys ms p₀ p)
    (hnew : Pass.procedureKey (p.name .procedure (b.head.field "NAME")).1 ∉ keys)
    {part₀ : String} {q₀ : Pass} (h₀ : (Compiler.bare o).topBlock b p₀ = .ok part₀ q₀) :
    part₀ = "" ∧ ∃ q, (Compiler.fitted o snippet).topBlock b p = .ok "" q ∧
      Tracks (snippetLine snippet)
        (Pass.procedureKey (p.name .procedure (b.head.field "NAME")).1 :: keys)
        (ms + Firing.allMarks (firings o w ((Compiler.fitted o snippet).trace b false p))) q₀ q ∧
      (↑((firings o w ((Compiler.fitted o snippet).trace b false p)).map (·.block)) :
        Multiset Block) ≤ ↑b.descendants := by
  have hnext := hb.next_eq_none hdefinition
  have hneighbours := neighboursSimulate_of_strict hmarked hindent hb.strict
  obtain ⟨hchosen, hp'⟩ := hp.name .procedure (b.head.field "NAME")
  rw [Compiler.topBlock_definition rfl henabled hdefinition hnext] at h₀ ⊢
  obtain ⟨code₀, r₀, hcode₀, hpure⟩ := PassM.of_bind_ok h₀
  cases hpure
  rw [hchosen] at hcode₀
  obtain ⟨code, r, hcode, hr, hgrown⟩ :=
    (hneighbours.definitionCode hmarked hindent hb.id _).ok hp' hcode₀
  refine ⟨rfl, _, PassM.bind_ok hcode _, ?_, ?_⟩
  · have hwoven := (woven_comments (snippetLine snippet) o.commentWidth b).append hgrown.woven
    rw [← String.append_assoc, ← String.append_assoc, zero_add, add_comm] at hwoven
    rw [Compiler.firings_trace_definition rfl henabled hdefinition hnext hcode,
      Firing.allMarks_append, Firing.allMarks_singleton, hchosen]
    exact hr.define hnew hwoven
  · have hle : (↑(["STACK"].flatMap b.under) : Multiset Block) ≤ ↑b.inner :=
      treeOf_le b.inputs (List.nodup_singleton _)
    have hown : ({b} : Multiset Block) + ↑b.inner ≤ ↑b.descendants := by
      rw [b.descendants_eq_append]
      exact Multiset.coe_le.2 (List.sublist_append_left (b :: b.inner) b.behind).subperm
    rw [Compiler.firings_trace_definition rfl henabled hdefinition hnext hcode, List.map_append,
      ← Multiset.coe_add, add_comm]
    exact (add_le_add_right (hgrown.within.trans hle) {b}).trans hown

/-- A definition that ends in an error. -/
theorem error_definition (hb : b.IsTop w) (henabled : b.head.enabled)
    (hdefinition : b.head.isDefinition) {keys : List String} {ms : Multiset Mark} {p₀ p q₀ : Pass}
    (hp : Tracks (snippetLine snippet) keys ms p₀ p) {error : CompileError}
    (h₀ : (Compiler.bare o).topBlock b p₀ = .error error q₀) :
    ∃ q, (Compiler.fitted o snippet).topBlock b p = .error error q := by
  have hnext := hb.next_eq_none hdefinition
  have hneighbours := neighboursSimulate_of_strict hmarked hindent hb.strict
  obtain ⟨hchosen, hp'⟩ := hp.name .procedure (b.head.field "NAME")
  rw [Compiler.topBlock_definition rfl henabled hdefinition hnext] at h₀ ⊢
  rcases PassM.of_bind_error h₀ with hcode₀ | ⟨_, _, -, hpure⟩
  · rw [hchosen] at hcode₀
    obtain ⟨q, hcode⟩ :=
      (hneighbours.definitionCode hmarked hindent hb.id _).error hp' hcode₀
    exact ⟨q, PassM.bind_error hcode _⟩
  · cases hpure

end

end Turtle

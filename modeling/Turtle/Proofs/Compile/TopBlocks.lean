import Turtle.Proofs.Compile.Emitted
import Turtle.Proofs.Compile.TopBlock

/-!
# Programs with snippets

The top blocks are compiled one after another.  As different procedures have different identifiers,
no definition takes the place of another one, so the two passes stay side by side, and the program
is the one without snippets with the snippets woven in that fire in the pass.
-/

namespace Turtle

variable {snippet marker : Site → String} {o : Options} {w : Workspace} {b : Block}

/-! ## Texts put together -/

section

variable {M : Type} {line : M → List Char} {ms ms' : Multiset M}

/-- Texts, side by side. -/
inductive WovenTexts (line : M → List Char) : Multiset M → List String → List String → Prop
  | nil : WovenTexts line 0 [] []
  | cons {ms ms' : Multiset M} {s₀ s : String} {texts₀ texts : List String}
    (h : Woven line ms (s₀ ++ "\n") (s ++ "\n")) (ht : WovenTexts line ms' texts₀ texts) :
    WovenTexts line (ms + ms') (s₀ :: texts₀) (s :: texts)

namespace WovenTexts

variable {texts₀ texts : List String}

theorem of_table {t₀ t : List (String × String)} (h : WovenTable line ms t₀ t) :
    WovenTexts line ms (t₀.map (·.2)) (t.map (·.2)) := by
  induction h with
  | nil => exact .nil
  | cons key h _ ih => exact .cons h ih

theorem append {texts₀' texts' : List String} (h : WovenTexts line ms texts₀ texts)
    (h' : WovenTexts line ms' texts₀' texts') :
    WovenTexts line (ms + ms') (texts₀ ++ texts₀') (texts ++ texts') := by
  induction h with
  | nil => rwa [zero_add]
  | cons h _ ih =>
    rw [add_assoc]
    exact .cons h ih

/-- A part counts if there is something in it. -/
theorem of_part {s₀ s : String} (h : PartWoven line ms s₀ s) :
    WovenTexts line ms ([s₀].filter (· != "")) ([s].filter (· != "")) := by
  cases h with
  | none => exact .nil
  | some ne₀ ne woven =>
    rw [List.filter_cons_of_pos (by simpa using ne₀), List.filter_cons_of_pos (by simpa using ne),
      ← add_zero ms]
    exact .cons woven .nil

/-- Texts that are put together with complete lines between them. -/
theorem intercalate (h : WovenTexts line ms texts₀ texts) {gap : String}
    (hgap : Woven line 0 gap gap) : Woven line ms (("\n" ++ gap).intercalate texts₀ ++ "\n")
      (("\n" ++ gap).intercalate texts ++ "\n") := by
  induction h with
  | nil => exact .same ""
  | @cons ms ms' s₀ s texts₀ texts h ht ih =>
    cases ht with
    | nil =>
      rw [add_zero, String.intercalate_singleton, String.intercalate_singleton]
      exact h
    | cons h' ht' =>
      rw [String.intercalate_cons_cons, String.intercalate_cons_cons]
      have hwoven := (h.append hgap).append ih
      rw [add_zero] at hwoven
      simpa only [String.append_assoc] using hwoven

end WovenTexts

end

/-- A program as complete lines. -/
theorem Pass.program_concat (p : Pass) (code : String) : p.program code ++ "\n" =
    ("\n" ++ "\n").intercalate (p.definitions.map (·.2)) ++ "\n" ++ ("\n" ++ "\n") ++
      (code ++ "\n") := by
  rw [program, show "\n\n" = "\n" ++ "\n" from rfl,
    show "\n\n\n" = "\n" ++ ("\n" ++ "\n") from rfl]
  simp only [String.append_assoc]

/-- The programs of two passes side by side. -/
theorem Tracks.program {M : Type} {line : M → List Char} {keys : List String} {ms ms' : Multiset M}
    {p₀ p : Pass} {parts₀ parts : List String} (h : Tracks line keys ms p₀ p)
    (hparts : WovenTexts line ms' parts₀ parts) :
    Woven line (ms + ms') (p₀.program ("\n".intercalate parts₀) ++ "\n")
      (p.program ("\n".intercalate parts) ++ "\n") := by
  have hgap : Woven line 0 "\n" "\n" := .same ""
  have hdefinitions := (WovenTexts.of_table h.definitions).intercalate hgap
  have hcode := hparts.intercalate .empty
  rw [String.append_empty] at hcode
  have hwoven := (hdefinitions.append (.same "\n")).append hcode
  rw [add_zero] at hwoven
  rw [Pass.program_concat, Pass.program_concat]
  exact hwoven

/-! ## Keys of procedures -/

/-- The names of the procedures that a block defines, in lower case. -/
def Block.definedNames (b : Block) : List String :=
  if b.head.isDefinition then [lower (b.head.field "NAME")] else []

/-- Some keys are those of procedures of some names. -/
def Pass.KeysOf (p : Pass) (names keys : List String) : Prop :=
  ∀ key ∈ keys, ∃ name ∈ names, ∃ chosen,
    p.names.given.lookup (.procedure, name) = some chosen ∧ key = Pass.procedureKey chosen

namespace Pass.KeysOf

variable {p q : Pass} {names names' keys : List String}

theorem mono (h : p.KeysOf names keys) (hfollows : p.Follows q) (hnames : names ⊆ names') :
    q.KeysOf names' keys := by
  intro key hkey
  obtain ⟨name, hname, chosen, hgiven, rfl⟩ := h key hkey
  exact ⟨name, hnames hname, chosen, hfollows.names.grows.given _ _ hgiven, rfl⟩

/-- The identifier of another name has another key. -/
theorem notMem (h : p.KeysOf names keys) (hsound : p.Sound) {name : String}
    (hname : lower name ∉ names) :
    Pass.procedureKey (p.name .procedure name).1 ∉ keys := by
  intro hkey
  obtain ⟨name', hname', chosen, hgiven, hchosen⟩ := h _ hkey
  have hgiven' := (p.names.grows_get .procedure name).given _ _ hgiven
  refine (hsound.name .procedure name).names.lower_ne (p.names.lookup_get .procedure name) hgiven'
    ?_ (by rw [← procedureKey_injective hchosen]; rfl)
  rintro heq
  exact hname ((Prod.mk.inj heq).2 ▸ hname')

end Pass.KeysOf

/-! ## Top blocks one after another -/

/-- Two passes side by side, after the procedures of some names were defined. -/
structure SideBySide {M : Type} (line : M → List Char) (names : List String) (ms : Multiset M)
    (p₀ p : Pass) : Prop where
  tracks : ∃ keys, Tracks line keys ms p₀ p ∧ p.KeysOf names keys
  sound : p.Sound

/-- What some top blocks leave: the snippets that fire are woven into the definitions and into the
parts. -/
structure Swept (snippet : Site → String) (o : Options) (w : Workspace) (names : List String)
    (ms : Multiset Mark) (blocks : List Block) (events : List Event) (q₀ q : Pass)
    (parts₀ parts : List String) : Prop where
  state : ∃ ms₁ ms₂, SideBySide (snippetLine snippet) names (ms + ms₁) q₀ q ∧
    WovenTexts (snippetLine snippet) ms₂ (parts₀.filter (· != "")) (parts.filter (· != "")) ∧
    ms₁ + ms₂ = Firing.allMarks (firings o w events)
  within : (↑((firings o w events).map (·.block)) : Multiset Block) ≤ ↑blocks

section

variable (hmarked : Marked snippet marker) (hindent : ∀ c ∈ o.indent.toList, Text.isGap c)
include hmarked hindent

variable {names : List String} {ms : Multiset Mark} {p₀ q₀ p : Pass}

/-- What one top block preserves. -/
theorem SideBySide.step (h : SideBySide (snippetLine snippet) names ms p₀ p) (hb : b.IsTop w)
    (hnew : ∀ name ∈ b.definedNames, name ∉ names) {part₀ : String}
    (h₀ : (Compiler.bare o).topBlock b p₀ = .ok part₀ q₀) :
    ∃ part q, (Compiler.fitted o snippet).topBlock b p = .ok part q ∧
      Swept snippet o w (names ++ b.definedNames) ms b.descendants
        ((Compiler.fitted o snippet).trace b false p) q₀ q [part₀] [part] := by
  obtain ⟨keys, htracks, hkeys⟩ := h.tracks
  have hfollows {part : String} {q : Pass}
      (hrun : (Compiler.fitted o snippet).topBlock b p = .ok part q) : p.Follows q :=
    ((Compiler.fitted o snippet).traced_topBlock b p part q hrun).1.follows
  by_cases hdefines : b.head.enabled ∧ b.head.isDefinition
  · obtain ⟨henabled, hdefinition⟩ := hdefines
    have hnames : b.definedNames = [lower (b.head.field "NAME")] := if_pos hdefinition
    have hfree := hkeys.notMem h.sound (hnew _ (by rw [hnames]; exact List.mem_cons_self))
    obtain ⟨rfl, q, hrun, hq, hwithin⟩ :=
      tracks_definition hmarked hindent hb henabled hdefinition htracks hfree h₀
    refine ⟨"", q, hrun, ⟨_, 0, ?_, .nil, add_zero _⟩, hwithin⟩
    have hnext := hb.next_eq_none hdefinition
    have hgiven := ((Compiler.fitted o snippet).traced_topBlock b p "" q hrun).1.lookup_procedure
      (Compiler.exchange_mem_trace_definition rfl henabled hdefinition hnext hrun)
    refine ⟨⟨_, hq, List.forall_mem_cons.2 ⟨?_, ?_⟩⟩, (hfollows hrun).sound h.sound⟩
    · exact ⟨_, by rw [hnames]; simp, _, hgiven, rfl⟩
    · exact hkeys.mono (hfollows hrun) (List.subset_append_left _ _)
  · have hdefinition (henabled : b.head.enabled) : ¬ b.head.isDefinition := fun hd ↦
      hdefines ⟨henabled, hd⟩
    obtain ⟨part, q, hrun, hq, hgrown⟩ :=
      (simulates_topBlock hmarked hindent hb hdefinition).ok htracks h₀
    refine ⟨part, q, hrun, ⟨0, _, ?_, ?_, zero_add _⟩, hgrown.within⟩
    · rw [add_zero]
      exact ⟨⟨keys, hq, hkeys.mono (hfollows hrun) (List.subset_append_left _ _)⟩,
        (hfollows hrun).sound h.sound⟩
    · exact .of_part hgrown.woven

/-- A top block that ends in an error. -/
theorem SideBySide.step_error (h : SideBySide (snippetLine snippet) names ms p₀ p)
    (hb : b.IsTop w) {error : CompileError}
    (h₀ : (Compiler.bare o).topBlock b p₀ = .error error q₀) :
    ∃ q, (Compiler.fitted o snippet).topBlock b p = .error error q := by
  obtain ⟨keys, htracks, -⟩ := h.tracks
  by_cases hdefines : b.head.enabled ∧ b.head.isDefinition
  · exact error_definition hmarked hindent hb hdefines.1 hdefines.2 htracks h₀
  · exact (simulates_topBlock hmarked hindent hb fun henabled hd ↦
      hdefines ⟨henabled, hd⟩).error htracks h₀

omit hmarked hindent in
theorem notMem_of_nodup {others : List String} (h : (names ++ b.definedNames ++ others).Nodup) :
    ∀ name ∈ b.definedNames, name ∉ names := fun name hname hmem ↦
  (List.nodup_append.1 (List.nodup_append.1 h).1).2.2 name hmem name hname rfl

/-- What all top blocks preserve. -/
theorem SideBySide.run {blocks : List Block} (hblocks : ∀ b ∈ blocks, b.IsTop w)
    (h : SideBySide (snippetLine snippet) names ms p₀ p)
    (hnodup : (names ++ blocks.flatMap Block.definedNames).Nodup) {parts₀ : List String}
    (h₀ : blocks.mapM (Compiler.bare o).topBlock p₀ = .ok parts₀ q₀) :
    ∃ parts q, blocks.mapM (Compiler.fitted o snippet).topBlock p = .ok parts q ∧
      Swept snippet o w (names ++ blocks.flatMap Block.definedNames) ms
        (blocks.flatMap Block.descendants) ((Compiler.fitted o snippet).traceAll blocks p) q₀ q
        parts₀ parts := by
  induction blocks generalizing names ms p₀ p parts₀ with
  | nil =>
    cases h₀
    refine ⟨[], p, rfl, ⟨0, 0, ?_, .nil, rfl⟩, le_refl _⟩
    rw [add_zero, List.flatMap_nil, List.append_nil]
    exact h
  | cons b blocks ih =>
    rw [List.mapM_cons] at h₀
    obtain ⟨part₀, r₀, hpart₀, hrest₀⟩ := PassM.of_bind_ok h₀
    obtain ⟨rest₀, _, hmapM₀, hpure⟩ := PassM.of_bind_ok hrest₀
    cases hpure
    rw [List.flatMap_cons, ← List.append_assoc] at hnodup
    obtain ⟨part, r, hpart, ⟨ms₁, ms₂, hr, hparts, hmarks⟩, hwithin⟩ :=
      h.step hmarked hindent (hblocks b List.mem_cons_self) (notMem_of_nodup hnodup) hpart₀
    obtain ⟨rest, q, hrest, ⟨ms₃, ms₄, hq, hparts', hmarks'⟩, hwithin'⟩ :=
      ih (fun b' hb' ↦ hblocks b' (List.mem_cons_of_mem b hb')) hr hnodup hmapM₀
    have hrun : (b :: blocks).mapM (Compiler.fitted o snippet).topBlock p =
        .ok (part :: rest) q := by
      rw [List.mapM_cons, PassM.bind_ok hpart, PassM.bind_ok hrest]
      rfl
    have htrace : (Compiler.fitted o snippet).traceAll (b :: blocks) p =
        (Compiler.fitted o snippet).trace b false p ++
          (Compiler.fitted o snippet).traceAll blocks r := by
      simp only [Compiler.traceAll, EStateM.run, hpart]
    refine ⟨part :: rest, q, hrun, ⟨ms₁ + ms₃, ms₂ + ms₄, ?_, ?_, ?_⟩, ?_⟩
    · rw [List.flatMap_cons, ← List.append_assoc, ← add_assoc]
      exact hq
    · rw [← List.singleton_append, List.filter_append, ← List.singleton_append (l := rest),
        List.filter_append]
      exact hparts.append hparts'
    · rw [htrace, firings_append, Firing.allMarks_append, ← hmarks, ← hmarks']
      abel
    · rw [htrace, firings_append, List.map_append, List.flatMap_cons, ← Multiset.coe_add,
        ← Multiset.coe_add]
      exact add_le_add hwithin hwithin'

/-- Top blocks that end in an error. -/
theorem SideBySide.run_error {blocks : List Block} (hblocks : ∀ b ∈ blocks, b.IsTop w)
    (h : SideBySide (snippetLine snippet) names ms p₀ p)
    (hnodup : (names ++ blocks.flatMap Block.definedNames).Nodup) {error : CompileError}
    (h₀ : blocks.mapM (Compiler.bare o).topBlock p₀ = .error error q₀) :
    ∃ q, blocks.mapM (Compiler.fitted o snippet).topBlock p = .error error q := by
  induction blocks generalizing names ms p₀ p with
  | nil => cases h₀
  | cons b blocks ih =>
    rw [List.mapM_cons] at h₀ ⊢
    rcases PassM.of_bind_error h₀ with hpart₀ | ⟨part₀, r₀, hpart₀, hrest₀⟩
    · obtain ⟨q, hpart⟩ :=
        h.step_error hmarked hindent (hblocks b List.mem_cons_self) hpart₀
      exact ⟨q, PassM.bind_error hpart _⟩
    · rw [List.flatMap_cons, ← List.append_assoc] at hnodup
      obtain ⟨part, r, hpart, ⟨_, _, hr, -⟩, -⟩ :=
        h.step hmarked hindent (hblocks b List.mem_cons_self) (notMem_of_nodup hnodup) hpart₀
      rcases PassM.of_bind_error hrest₀ with hmapM₀ | ⟨_, _, -, hpure⟩
      · obtain ⟨q, hrest⟩ :=
          ih (fun b' hb' ↦ hblocks b' (List.mem_cons_of_mem b hb')) hr hnodup hmapM₀
        exact ⟨q, (PassM.bind_ok hpart _).trans (PassM.bind_error hrest _)⟩
      · cases hpure

end

end Turtle

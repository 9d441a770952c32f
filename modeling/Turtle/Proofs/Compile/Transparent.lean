import Turtle.Proofs.Compile.TopBlocks
import Turtle.Proofs.Workspace.Sorting

/-!
# Snippets are transparent

A workspace may be compiled with snippets that are single lines, each with a marker that no line of
its program begins with.  Without the marked lines, the program with snippets is the program without
them, and every block that is emitted has as many snippets of each site as its kind says.
-/

namespace Turtle

open Recipe

variable {snippet marker : Site → String} {o : Options} {w : Workspace} {b : Block}

/-! ## What is emitted -/

namespace Recipe

variable {α : Type} {P : Request → Prop} {Q : α → Prop}

theorem Asks.of_yields {r : Recipe α} (h : r.Asks P Q) {log : List Exchange} {a : α}
    (hyields : r.Yields log a) : Q a := by
  induction hyields with
  | done => exact h
  | ask _ ih => exact ih (h.2 _)
  | hoist => exact h.elim

/-- Whatever happens while a recipe is followed happens to its neighbours or is an exchange. -/
theorem mem_trace {indent : String} {n : Neighbours} {t : Traces} {r : Recipe α} {p : Pass}
    {event : Event} (h : event ∈ r.trace indent n t b p) :
    (∃ input p', event ∈ t.input input p') ∨ (∃ p', event ∈ t.following p') ∨
      ∃ x, event = .exchange b x := by
  induction r generalizing p with
  | done => cases h
  | fail => cases h
  | ask q next ih =>
    rw [trace] at h
    split at h
    case h_1 answer p' _ =>
      rcases List.mem_append.1 h with h | h
      · cases q with
        | value input | body input => exact .inl ⟨input, p, h⟩
        | «variable» | procedure | helper => cases h
      · rcases List.mem_cons.1 h with h | h
        · exact .inr (.inr ⟨_, h⟩)
        · exact ih answer h
    case h_2 => cases h
  | hoist name code next ih =>
    rw [trace] at h
    split at h
    case h_1 =>
      rcases List.mem_append.1 h with h | h
      · exact .inr (.inl ⟨p, h⟩)
      · rcases List.mem_cons.1 h with h | h
        · exact .inr (.inr ⟨_, h⟩)
        · exact ih h
    case h_2 => cases h

end Recipe

namespace Compiler

variable {c : Compiler}

theorem mem_of_mem_settleTrace {alone : Bool} {following : Pass → List Event} {emission : Emission}
    {p : Pass} {event : Event} (h : event ∈ settleTrace alone following emission p) :
    event ∈ following p := by
  cases emission with
  | statement | value =>
    cases alone with
    | true => cases h
    | false => exact h
  | hoisted => cases h

/-- What is emitted while a block is emitted is the block or is emitted by its neighbours. -/
theorem of_emitted_mem_emitTrace {alone : Bool} {t : Traces} {p : Pass} {d : Block}
    {log : List Exchange} {emission : Emission}
    (h : .emitted d log emission ∈ c.emitTrace b alone t p) :
    d = b ∨ (∃ input p', .emitted d log emission ∈ t.input input p') ∨
      ∃ p', .emitted d log emission ∈ t.following p' := by
  unfold emitTrace at h
  split at h
  · cases h
  · dsimp only at h
    split at h
    case h_2 => cases h
    case h_1 own p' _ =>
      rcases List.mem_append.1 h with h | h
      · rcases mem_trace h with h | h | ⟨x, h⟩
        · exact .inr (.inl h)
        · exact .inr (.inr h)
        · cases h
      · rcases List.mem_cons.1 h with h | h
        · cases h
          exact .inl rfl
        · exact .inr (.inr ⟨p', mem_of_mem_settleTrace h⟩)

/-- What is emitted in the trace of a block stands in it, below it or behind it. -/
theorem mem_descendants_of_emitted {d : Block} {log : List Exchange} {emission : Emission}
    {alone : Bool} {p : Pass} (h : .emitted d log emission ∈ c.trace b alone p) :
    d ∈ b.descendants := by
  induction b using Block.induct_target generalizing alone p with
  | step b htargets hnext =>
    have hchain {b? : Option Block} (hb? : ∀ t, b? = some t → t.descendants ⊆ b.strict ∧
        ∀ alone p, .emitted d log emission ∈ c.trace t alone p → d ∈ t.descendants) {p : Pass}
        (h : .emitted d log emission ∈ c.trace? b? p) : d ∈ b.strict := by
      cases b? with
      | none => cases h
      | some t => exact (hb? t rfl).1 ((hb? t rfl).2 false p h)
    have hinput {input : String} {p : Pass}
        (h : .emitted d log emission ∈ c.trace? (b.target? input) p) : d ∈ b.strict :=
      hchain (fun t ht ↦ ⟨Block.subset_strict_of_target ht, fun _ _ ↦ htargets input t ht⟩) h
    have hfollowing {p : Pass} (h : .emitted d log emission ∈ c.trace? b.next p) : d ∈ b.strict :=
      hchain (fun t ht ↦ ⟨Block.subset_strict_of_next ht, fun _ _ ↦ hnext t ht⟩) h
    rw [b.descendants_eq_append, List.cons_append, List.mem_cons]
    rw [trace_eq] at h
    split at h
    case isTrue =>
      rcases of_emitted_mem_emitTrace h with rfl | ⟨input, p', h⟩ | ⟨p', h⟩
      · exact .inl rfl
      · exact .inr (hinput h)
      · exact .inr (hfollowing h)
    case isFalse =>
      split at h
      · cases h
      · exact .inr (hfollowing h)

/-- What is emitted in a pass is a block of the workspace. -/
theorem mem_allBlocks_of_emitted {d : Block} {log : List Exchange} {emission : Emission}
    (h : .emitted d log emission ∈ c.traceOf w) : d ∈ w.allBlocks := by
  rw [traceOf] at h
  rw [Workspace.allBlocks]
  generalize w.start = p at h
  generalize w.ordered = blocks at h ⊢
  induction blocks generalizing p with
  | nil => cases h
  | cons b blocks ih =>
    rw [List.flatMap_cons, List.mem_append]
    rw [traceAll] at h
    split at h
    case h_1 p' _ =>
      rcases List.mem_append.1 h with h | h
      · exact .inl (mem_descendants_of_emitted h)
      · exact .inr (ih p' h)
    case h_2 => cases h

end Compiler

/-! ## Shapes of emissions -/

namespace Emitter

variable {v : View} {log : List Exchange} {emission : Emission}

theorem of_yields_statement {f : View → Recipe String}
    (h : ((Emitter.statement f).emit v).Yields log emission) :
    ∃ code, emission = .statement code := by
  obtain ⟨_, _, code, _, _, hdone⟩ := Yields.of_bind h
  cases hdone
  exact ⟨code, rfl⟩

/-- A standard emitter of expressions leaves values, and the others leave none. -/
theorem shape_eq_value_iff {e : Emitter} {h : Head} (he : standard? h.kind = some e)
    (hyields : (e.emit v).Yields log emission) :
    e.shape = .value ↔ ∃ code order, emission = .value code order := by
  by_cases hdefinition : h.isDefinition
  · cases he.symm.trans (standard?_of_isDefinition hdefinition)
    obtain ⟨_, _, _, _, -, rfl, -⟩ := yields_definition hyields
    simp [Emitter.definition]
  · by_cases hkind : h.kind ∈ snippetKinds
    · have hdefinition := Head.isDefinition_iff.not.1 hdefinition
      have hstatement : e.shape = .statement ∧ ∃ code, emission = .statement code := by
        obtain ⟨-, f, head, rfl, -⟩ | ⟨-, rfl⟩ | ⟨-, rfl⟩ :=
          standard?_snippetKinds he hkind hdefinition
        · exact ⟨rfl, of_yields_statement hyields⟩
        · exact ⟨rfl, of_yields_statement (f := branch) hyields⟩
        · exact ⟨rfl, of_yields_statement hyields⟩
      obtain ⟨hshape, code, rfl⟩ := hstatement
      simp [hshape]
    · have hleaves := ((isFlat_standard he hkind).2 v).of_yields hyields
      cases hshape : e.shape <;> cases emission <;> simp_all [LeavesShape]

end Emitter

/-! ## Workspaces -/

namespace Workspace

/-- A workspace whose blocks have ids of one line and are connected as their kinds allow. -/
structure Orderly (w : Workspace) : Prop where
  ids : (w.allBlocks.map (·.head.id)).Nodup
  line : ∀ b ∈ w.allBlocks, '\n' ∉ b.head.id.toList
  /-- Only statements have a next block, and definitions do not. -/
  next : ∀ b ∈ w.allBlocks, b.next.isSome →
    Emitter.shape? b.head.kind = some .statement ∧ ¬ b.head.isDefinition
  /-- Definitions are top blocks. -/
  top : ∀ b ∈ w.allBlocks, b.head.isDefinition → b ∈ w.topBlocks
  /-- The procedures that are defined have different names. -/
  names : (w.procedureNames.map lower).Nodup

theorem perm_allBlocks (w : Workspace) :
    w.allBlocks.Perm (w.ordered ++ w.ordered.flatMap Block.strict) := by
  have hperm := List.flatMap_append_perm w.ordered (fun b ↦ [b]) Block.strict
  rw [List.flatMap_singleton'] at hperm
  refine .trans ?_ hperm.symm
  rw [allBlocks, List.flatMap_congr fun b _ ↦ b.descendants_eq_append]
  exact .refl _

theorem names_eq (w : Workspace) :
    w.procedureNames.map lower = w.ordered.flatMap Block.definedNames := by
  rw [procedureNames]
  induction w.ordered with
  | nil => rfl
  | cons b blocks ih =>
    rw [List.flatMap_cons, ← ih, Block.definedNames]
    by_cases h : b.head.isDefinition
    · simp [h]
    · simp [h]

namespace Orderly

variable (h : w.Orderly)
include h

/-- The blocks below and behind top blocks have other ids. -/
theorem id_notMem {t d : Block} (ht : t ∈ w.ordered) (hd : d ∈ t.strict) :
    d.head.id ∉ w.topBlocks.map (·.head.id) := by
  have hnodup := (w.perm_allBlocks.map (·.head.id)).nodup_iff.1 h.ids
  rw [List.map_append] at hnodup
  intro hmem
  obtain ⟨t', ht', heq⟩ := List.mem_map.1 hmem
  refine (List.nodup_append.1 hnodup).2.2 _ (List.mem_map_of_mem (mem_ordered.2 ht')) _
    (List.mem_map_of_mem (List.mem_flatMap.2 ⟨t, ht, hd⟩)) heq

theorem isTop {t : Block} (ht : t ∈ w.ordered) : t.IsTop w := by
  have hmem {d : Block} (hd : d ∈ t.descendants) : d ∈ w.allBlocks :=
    List.mem_flatMap.2 ⟨t, ht, hd⟩
  have hself : t ∈ w.allBlocks := hmem (t.descendants_eq_append ▸ List.mem_cons_self)
  refine ⟨h.line t hself, h.next t hself, List.mem_map_of_mem (mem_ordered.1 ht), fun d hd ↦ ?_⟩
  have hbelow : d ∈ w.allBlocks := hmem (t.descendants_eq_append ▸ List.mem_cons_of_mem t hd)
  have hid := h.id_notMem ht hd
  refine ⟨h.line d hbelow, fun hdefinition ↦ hid ?_, fun hsome ↦ (h.next d hbelow hsome).1, hid⟩
  exact List.mem_map_of_mem (h.top d hbelow hdefinition)

end Orderly

end Workspace

/-! ## Programs -/

/-- A firing is that of an emitted block, and of an expression only at the top. -/
theorem Event.of_firing? {event : Event} {f : Firing} (h : event.firing? o w = some f) :
    ∃ log emission, event = .emitted f.block log emission ∧
      ∀ code order, emission = .value code order →
        f.block.head.id ∈ w.topBlocks.map (·.head.id) := by
  cases event with
  | exchange => cases h
  | emitted b log emission =>
    cases emission with
    | statement code =>
      cases h
      exact ⟨log, _, rfl, nofun⟩
    | hoisted =>
      cases h
      exact ⟨log, _, rfl, nofun⟩
    | value code order =>
      rw [firing?] at h
      split at h
      case isTrue htop =>
        cases h
        exact ⟨log, _, rfl, fun _ _ _ ↦ htop⟩
      case isFalse => cases h

/-- What fires for an emitted block, unless it is an expression below a top block. -/
theorem Event.firing?_eq_some {log : List Exchange} {emission : Emission}
    (h : ∀ code order, emission = .value code order → b.head.id ∈ w.topBlocks.map (·.head.id)) :
    (Event.emitted b log emission).firing? o w = some ⟨b, w.sites o b log emission⟩ := by
  cases emission with
  | statement code => rfl
  | hoisted => rfl
  | value code order => exact if_pos (h code order rfl)

/-- Every emitted block has as many snippets in the program as its kind says. -/
theorem count_allMarks_firings (hw : w.Orderly) {events : List Event}
    (hexplained : Explained (Compiler.fitted o snippet) (fun _ _ ↦ False) events)
    (hwithin : (↑((firings o w events).map (·.block)) : Multiset Block) ≤ ↑w.allBlocks)
    (hemitted : ∀ d log emission, .emitted d log emission ∈ events → d ∈ w.allBlocks)
    {log : List Exchange} {emission : Emission} (hb : .emitted b log emission ∈ events)
    (site : Site) : (Firing.allMarks (firings o w events)).count ⟨site, b.head.id⟩ =
      (w.sites o b log emission).count site := by
  by_cases hvalue : ∀ code order, emission = .value code order →
    b.head.id ∈ w.topBlocks.map (·.head.id)
  · have hmem : ⟨b, w.sites o b log emission⟩ ∈ firings o w events :=
      List.mem_filterMap.2 ⟨_, hb, Event.firing?_eq_some hvalue⟩
    have hnodup : ((firings o w events).map (·.block.head.id)).Nodup := by
      have hle := Multiset.map_le_map (f := (·.head.id)) hwithin
      rw [Multiset.map_coe, Multiset.map_coe, List.map_map] at hle
      exact Multiset.coe_nodup.1 (Multiset.nodup_of_le hle (Multiset.coe_nodup.2 hw.ids))
    exact Firing.count_allMarks hnodup hmem site
  · push Not at hvalue
    obtain ⟨code, order, rfl, htop⟩ := hvalue
    rw [Workspace.sites, if_neg fun hand ↦ htop hand.1, List.count_nil]
    refine Firing.count_allMarks_eq_zero (fun f hf heq ↦ ?_) site
    obtain ⟨event, hevent, hfiring⟩ := List.mem_filterMap.1 hf
    obtain ⟨log', emission', rfl, hvalue⟩ := Event.of_firing? hfiring
    have hblock : f.block = b := List.inj_on_of_nodup_map hw.ids (hemitted _ _ _ hevent)
      (hemitted _ _ _ hb) heq
    rw [hblock] at hevent hvalue
    -- Both emissions have the shape of the same emitter, so the one that fires is a value, too.
    obtain ⟨e, he, hyields, -⟩ := hexplained.emitted _ _ _ hb
    obtain ⟨e', he', hyields', -⟩ := hexplained.emitted _ _ _ hevent
    cases he.symm.trans he'
    obtain ⟨code', order', rfl⟩ := (Emitter.shape_eq_value_iff he hyields').1
      ((Emitter.shape_eq_value_iff he hyields).2 ⟨code, order, rfl⟩)
    exact htop (hvalue code' order' rfl)

namespace Compiler

/-- With snippets that can be told from the lines of its program, a workspace is compiled as it is
without them, or ends in the same error.  The marked lines are the only difference, and there are as
many for each emitted block as it should have. -/
theorem rawProgram_fitted (hmarked : Marked snippet marker)
    (hindent : ∀ c ∈ o.indent.toList, Text.isGap c) (hw : w.Orderly) :
    (∀ error, (bare o).rawProgram w = .error error →
      (fitted o snippet).rawProgram w = .error error) ∧
    ∀ plain, (bare o).rawProgram w = .ok plain →
      (∀ l ∈ Text.splitLines plain.toList, ¬ isMarked marker l) →
      ∃ text, (fitted o snippet).rawProgram w = .ok text ∧ unmarked marker text = plain ∧
        ∀ b log emission, .emitted b log emission ∈ (fitted o snippet).traceOf w → ∀ site,
          markCount snippet text ⟨site, b.head.id⟩ = (w.sites o b log emission).count site := by
  have hstart : SideBySide (snippetLine snippet) [] 0 w.start w.start :=
    ⟨⟨[], .refl rfl, nofun⟩, w.sound_start⟩
  have hnodup : ([] ++ w.ordered.flatMap Block.definedNames).Nodup := by
    rw [List.nil_append, ← w.names_eq]
    exact hw.names
  have htop : ∀ b ∈ w.ordered, b.IsTop w := fun b hb ↦ hw.isTop hb
  constructor
  · intro error herror
    obtain ⟨q₀, hrun₀⟩ := of_rawProgram_error herror
    obtain ⟨q, hrun⟩ := hstart.run_error hmarked hindent htop hnodup hrun₀
    exact rawProgram_error hrun
  · intro plain hplain hfree
    obtain ⟨parts₀, q₀, hrun₀, rfl⟩ := of_rawProgram_ok hplain
    obtain ⟨parts, q, hrun, ⟨ms₁, ms₂, ⟨⟨keys, htracks, -⟩, -⟩, hparts, hmarks⟩, hwithin⟩ :=
      hstart.run hmarked hindent htop hnodup hrun₀
    have hwoven := htracks.program hparts
    rw [zero_add, hmarks] at hwoven
    refine ⟨_, rawProgram_ok hrun, hmarked.unmarked_eq hwoven hfree,
      fun b log emission hb site ↦ ?_⟩
    rw [hmarked.markCount_eq hwoven hfree]
    exact count_allMarks_firings hw (traced_mapM _ _ _ _ _ hrun).2 hwithin
      (fun _ _ _ ↦ mem_allBlocks_of_emitted) hb site

end Compiler

/-! ## A definition, a loop and an expression -/

namespace Site

/-- A marker for each site. -/
def word : Site → String
  | before => "enter"
  | after => "leave"
  | trap => "check"

/-- A snippet that shows the id. -/
def report (site : Site) : String := site.word ++ " %1" ++ "\n"

theorem marked_report : Marked report word := by
  have heq (site : Site) : report site = site.word ++ " %1" ++ "\n" := rfl
  refine Marked.of_markers heq ?_ ?_ ?_ ?_ ?_
  · rintro (_ | _ | _) <;> decide
  · intro _
    decide
  · rintro (_ | _ | _) <;> decide
  · rintro (_ | _ | _)
    · exact ⟨_, _, rfl, by decide⟩
    · exact ⟨_, _, rfl, by decide⟩
    · exact ⟨_, _, rfl, by decide⟩
  · rintro (_ | _ | _) (_ | _ | _) <;> decide

end Site

namespace Block

/-- A definition of a procedure that does nothing. -/
def idle : Block := (ofKind "procedures_defreturn" "p").withField "NAME" (.text "idle")

/-- A statement. -/
def lift : Block := (ofKind "logo_pen" "r").withField "OP" (.text "pu")

/-- A loop around the statement. -/
def lifting : Block :=
  ((ofKind "controls_whileUntil" "q").withField "MODE" (.text "UNTIL")).withInput "DO" .statement
    (some lift)

/-- An expression. -/
def five : Block := (ofKind "math_number" "s").withField "NUM" (.text "5")

theorem chain_lifting (input : String) :
    (Compiler.bare {}).chain (lifting.target? input) =
      pure (if "DO" = input then "pu\n" else "") := by
  split
  case isTrue h =>
    have hlift : (Compiler.bare {}).block lift false false = pure (.statement "pu\n") := by
      rw [Compiler.block_eq]
      rfl
    rw [← h]
    change (Compiler.bare {}).block lift false false >>= _ = _
    rw [hlift]
    rfl
  case isFalse h =>
    have hnone : lifting.target? input = none := by
      simp [lifting, target?, input?, withInput, withField, ofKind, h]
    rw [hnone]
    rfl

end Block

open Block in
/-- A definition, a loop and an expression. -/
def assorted : Workspace := { topBlocks := [idle, lifting, five] }

/-- The program without snippets. -/
def assortedText : String := "to idle\nend\n\n\nuntil [\"false] [\n  pu\n]\n\nignore 5\n"

open Block in
theorem rawProgram_assorted : (Compiler.bare {}).rawProgram assorted = .ok assortedText := by
  have hordered : assorted.ordered = assorted.topBlocks := rfl
  have hlifting : (Compiler.bare {}).block lifting false false =
      pure (.statement "until [\"false] [\n  pu\n]\n") := by
    rw [Compiler.block_eq, Compiler.neighbours]
    simp only [chain_lifting]
    rfl
  rw [Compiler.rawProgram, Compiler.topBlocks, hordered, assorted]
  simp only [List.mapM_cons, List.mapM_nil, Compiler.topBlock, hlifting]
  rw [Compiler.block_eq _ idle, Compiler.block_eq _ five]
  decide +kernel

open Block in
theorem orderly_assorted : assorted.Orderly := by
  have hordered : assorted.ordered = [idle, lifting, five] := rfl
  have hall : assorted.allBlocks = [idle, lifting, lift, five] := by
    rw [Workspace.allBlocks, hordered]
    simp [descendants_eq, idle, lifting, lift, five, withInput, withField, ofKind]
  refine ⟨by rw [hall]; decide, ?_, ?_, ?_, by rw [Workspace.procedureNames, hordered]; decide⟩
  · rw [hall]
    simp only [List.forall_mem_cons]
    decide
  · rw [hall]
    simp only [List.forall_mem_cons]
    exact ⟨by decide, by decide, by decide, by decide, List.forall_mem_nil _⟩
  · rw [hall]
    simp only [List.forall_mem_cons]
    exact ⟨fun _ ↦ List.mem_cons_self, fun h ↦ absurd h (by decide), fun h ↦ absurd h (by decide),
      fun h ↦ absurd h (by decide), List.forall_mem_nil _⟩

theorem Compiler.rawProgram_fitted_assorted :
    ∃ text, (fitted {} Site.report).rawProgram assorted = .ok text ∧
      unmarked Site.word text = assortedText ∧
      ∀ b log emission, .emitted b log emission ∈ (fitted {} Site.report).traceOf assorted →
        ∀ site, markCount Site.report text ⟨site, b.head.id⟩ =
          (assorted.sites {} b log emission).count site :=
  have hindent : ({} : Options).indent.toList.all Text.isGap := by decide
  (rawProgram_fitted Site.marked_report (List.all_eq_true.1 hindent) orderly_assorted).2
    assortedText rawProgram_assorted (by decide +kernel)

end Turtle

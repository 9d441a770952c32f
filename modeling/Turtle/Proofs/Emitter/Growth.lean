import Mathlib.Tactic.Abel
import Turtle.Proofs.Compile.Nesting
import Turtle.Proofs.Compile.Tracking

/-!
# Code with snippets

Beside the code that a standard emitter writes without snippets stands the code that it writes with
them.  An expression is the same in both.  A statement grows by the snippets of its kind and by
those of the statements in it.
-/

namespace Turtle

open Logo (Order)
open Recipe

variable {snippet marker : Site → String} {o : Options} {w : Workspace} {b : Block} {e : Emitter}

namespace Recipe.Simulates

variable {M α β : Type} {line : M → List Char} {c₀ c : Compiler} {r₀ r : Recipe α}
  {R : List Event → List Exchange → α → α → Prop} {S : List Event → List Exchange → β → β → Prop}

/-- What is made of the results. -/
theorem map (h : Simulates line c₀ c b r₀ r R) {g₀ g : α → β}
    (hg : ∀ events log a₀ a, R events log a₀ a → S events log (g₀ a₀) (g a)) :
    Simulates line c₀ c b (r₀ >>= fun a ↦ Pure.pure (g₀ a)) (r >>= fun a ↦ Pure.pure (g a)) S := by
  refine h.bind fun events log a₀ a hR ↦ .pure ?_
  rw [List.append_nil, List.append_nil]
  exact hg events log a₀ a hR

end Recipe.Simulates

/-- The code of a statement, beside which stands its code with its own snippets and with those of
the statements below some inputs. -/
structure CodeGrown (snippet : Site → String) (o : Options) (w : Workspace) (b : Block)
    (own : Multiset Mark) (inputs : List String) (events : List Event) (s₀ s : String) : Prop where
  woven : Woven (snippetLine snippet) (own + Firing.allMarks (firings o w events)) s₀ s
  within : (↑((firings o w events).map (·.block)) : Multiset Block) ≤ ↑(inputs.flatMap b.under)

/-- What emissions are written side by side. -/
inductive EmissionGrown (snippet : Site → String) (o : Options) (w : Workspace) (b : Block)
    (e : Emitter) (events : List Event) : Emission → Emission → Prop
  | value {code : String} {order : Order} (shape : e.shape = .value) (manual : e.manual = false)
    (silent : firings o w events = []) :
    EmissionGrown snippet o w b e events (.value code order) (.value code order)
  | statement {s₀ s : String} (shape : e.shape = .statement) (ne : s₀ ≠ "")
    (woven : Woven (snippetLine snippet)
      (↑(Firing.marks ⟨b, statementSites b.head.kind⟩) + Firing.allMarks (firings o w events)) s₀
      (if e.manual then s else (o.fitted snippet).surround b.head.id s))
    (within : (↑((firings o w events).map (·.block)) : Multiset Block) ≤ ↑b.inner) :
    EmissionGrown snippet o w b e events (.statement s₀) (.statement s)

/-! ## What opens a loop -/

namespace Emitter

/-- What a loop with a count begins with. -/
def repetitionHead (v : View) : Recipe String := do return "repeat " ++ (← times v) ++ " [\n"

/-- What a loop with a condition begins with. -/
def conditionHead (v : View) : Recipe String := do
  let keyword := if v.field "MODE" == "UNTIL" then "until" else "while"
  return keyword ++ " [" ++ (← operand "BOOL" .loose falseWord) ++ "] [\n"

/-- What a loop over numbers begins with. -/
def countingHead (v : View) : Recipe String := do
  let name ← variableName (v.field "VAR")
  let first ← operand "FROM" .loose "0"
  let last ← operand "TO" .loose "0"
  let step ← operand "BY" .loose "1"
  return "for [" ++ name ++ " [" ++ first ++ "] [" ++ last ++ "] [" ++ step ++ "]] [\n"

/-- What a loop over the elements of a list begins with. -/
def elementHead (v : View) : Recipe String := do
  let name ← variableName (v.field "VAR")
  let list ← operand "LIST" .loose "[]"
  return "foreach " ++ list ++ " [\n" ++ v.options.indent ++ "make \"" ++ name ++ " ?\n"

/-- The condition and what is done on it. -/
def returnParts (v : View) : Recipe (String × String) := do
  let condition ← operand "CONDITION" .loose falseWord
  let exit ← if v.head.mutation.hasReturnValue.getD true then
      (fun value ↦ "op " ++ value) <$> operand "VALUE" .loose "[]"
    else pure "stop"
  return (condition, exit)

/-- The recipe of a loop: what opens it, which has nothing to do with snippets, and its body. -/
structure IsLoop (f head : View → Recipe String) : Prop where
  eq : ∀ v, f v = do
    let opening ← head v
    let body ← loopBody v
    return opening ++ body ++ "]\n"
  flat : ∀ v, FlatLine (head v)
  congr : ∀ v v' : View, v.Agrees v' → head v = head v'

theorem isLoop_repetition : IsLoop repetition repetitionHead where
  eq v := by
    rw [repetition_eq, repetitionHead, bind_assoc]
    rfl
  flat v := by
    have htimes : (times v).Flat fun _ ↦ True := by
      unfold times
      split
      · trivial
      · exact flat_operand_self _ _ _
    exact asks_bind.2 (htimes.mono fun times _ ↦
      ⟨"repeat " ++ times ++ " [", by simp [String.append_assoc]⟩)
  congr v v' h := by simp only [repetitionHead, times, h.field, h.hasField]

theorem isLoop_conditionLoop : IsLoop conditionLoop conditionHead where
  eq _ := rfl
  flat v := flat_operand fun condition ↦
    ⟨(if v.field "MODE" == "UNTIL" then "until" else "while") ++ " [" ++ condition ++ "] [", by
      simp [String.append_assoc]⟩
  congr v v' h := by simp only [conditionHead, h.field]

theorem isLoop_countingLoop : IsLoop countingLoop countingHead where
  eq _ := rfl
  flat v := flat_variable fun name ↦ flat_operand fun first ↦ flat_operand fun last ↦
    flat_operand fun step ↦
      ⟨"for [" ++ name ++ " [" ++ first ++ "] [" ++ last ++ "] [" ++ step ++ "]] [", by
        simp [String.append_assoc]⟩
  congr v v' h := by simp only [countingHead, h.field]

theorem isLoop_elementLoop : IsLoop elementLoop elementHead where
  eq _ := rfl
  flat v := flat_variable fun name ↦ flat_operand fun list ↦
    ⟨"foreach " ++ list ++ " [\n" ++ v.options.indent ++ "make \"" ++ name ++ " ?", by
      simp [String.append_assoc]⟩
  congr v v' h := by simp only [elementHead, h.field, h.indent]

/-- The emitters that have to do with snippets, but for that of definitions. -/
theorem standard?_snippetKinds {kind : String} (he : standard? kind = some e)
    (hkind : kind ∈ snippetKinds)
    (hdefinition : kind ∉ ["procedures_defreturn", "procedures_defnoreturn"]) :
    (kind ∈ loopKinds ∧ ∃ f head, e = .statement f ∧ IsLoop f head) ∨
    (kind = "controls_ifelse" ∧ e = { statement branch with manual := true }) ∨
    (kind = "procedures_ifreturn" ∧ e = .statement conditionalReturn) := by
  cases standard?_isStandard he with
  | controlsIfelse => exact .inr (.inl ⟨rfl, rfl⟩)
  | controlsRepeatExt | controlsRepeat => exact .inl ⟨by decide, _, _, rfl, isLoop_repetition⟩
  | controlsWhileUntil => exact .inl ⟨by decide, _, _, rfl, isLoop_conditionLoop⟩
  | controlsFor => exact .inl ⟨by decide, _, _, rfl, isLoop_countingLoop⟩
  | controlsForEach => exact .inl ⟨by decide, _, _, rfl, isLoop_elementLoop⟩
  | proceduresDefreturn | proceduresDefnoreturn => exact absurd (by decide) hdefinition
  | proceduresIfreturn => exact .inr (.inr ⟨rfl, rfl⟩)
  | _ => exact absurd hkind (by decide)

variable {v : View}

theorem flat_returnParts : (returnParts v).Flat fun _ ↦ True := by
  refine flat_operand fun condition ↦ ?_
  split
  · exact ⟨trivial, fun _ ↦ trivial⟩
  · trivial

theorem conditionalReturn_eq (v : View) : conditionalReturn v = do
    let parts ← returnParts v
    return "if " ++ parts.1 ++ " [\n" ++ v.options.indented (v.options.afterOf v.head.id) ++
      v.options.indent ++ parts.2 ++ "\n]\n" := by
  rw [conditionalReturn, returnParts, bind_assoc]
  refine congrArg _ (funext fun condition ↦ ?_)
  split <;> simp only [bind_assoc, pure_bind]

end Emitter

/-- The snippets aside, a block looks the same. -/
theorem agrees_view (snippet : Site → String) (o : Options) (b : Block) (e : Emitter) :
    ((Compiler.bare o).view e b).Agrees ((Compiler.fitted o snippet).view e b) :=
  ⟨rfl, rfl, rfl, rfl, rfl, fun _ ↦ rfl, fun _ ↦ rfl, rfl, rfl⟩

namespace NeighboursSimulate

section

variable (h : NeighboursSimulate snippet o w b) (hmarked : Marked snippet marker)
  (hindent : ∀ c ∈ o.indent.toList, Text.isGap c) (hid : '\n' ∉ b.head.id.toList)
include h hmarked hindent hid

/-- The body of a loop, with the snippets around the loop once more. -/
theorem loopBody (hmanual : e.manual = false) : RecipesSimulate snippet o b
    (Emitter.loopBody ((Compiler.bare o).view e b))
    (Emitter.loopBody ((Compiler.fitted o snippet).view e b)) fun events _ ↦
      CodeGrown snippet o w b
        ({⟨.after, b.head.id⟩} + {⟨.trap, b.head.id⟩} + {⟨.before, b.head.id⟩}) ["DO"] events := by
  refine (h.body hindent "DO").map fun events log s₀ s ⟨hgrown, _⟩ ↦ ⟨?_, ?_⟩
  · have hwoven := hmarked.woven_loopBody hid hindent hgrown.woven
    simp only [Compiler.view, hmanual]
    convert hwoven using 1
    abel
  · simpa using hgrown.within

/-- A loop, put together from what opens it and from its body. -/
theorem loop {f head : View → Recipe String} (hf : Emitter.IsLoop f head)
    (hmanual : e.manual = false) : RecipesSimulate snippet o b
      (f ((Compiler.bare o).view e b)) (f ((Compiler.fitted o snippet).view e b))
      fun events _ s₀ s ↦ s₀ ≠ "" ∧ CodeGrown snippet o w b
        ({⟨.after, b.head.id⟩} + {⟨.trap, b.head.id⟩} + {⟨.before, b.head.id⟩}) ["DO"]
        events s₀ s := by
  rw [hf.eq, hf.eq, hf.congr _ _ (agrees_view snippet o b e)]
  refine (h.asks (fun _ ↦ id) (hf.flat _)).bind ?_
  rintro events log opening _ ⟨rfl, hevents, ⟨t, rfl⟩, -⟩
  refine (h.loopBody hmarked hindent hid hmanual).map fun events' _ s₀ s hgrown ↦ ?_
  have hfirings : firings o w (events ++ events') = firings o w events' := by
    rw [firings_append, hevents, List.nil_append]
  refine ⟨by simp, ?_, hfirings ▸ hgrown.within⟩
  rw [hfirings]
  have hwoven := ((Woven.same t).append hgrown.woven).append (.same "]")
  simpa using hwoven

/-- Two branches. -/
theorem branch : RecipesSimulate snippet o b
    (Emitter.branch ((Compiler.bare o).view e b))
    (Emitter.branch ((Compiler.fitted o snippet).view e b)) fun events _ s₀ s ↦
      s₀ ≠ "" ∧ CodeGrown snippet o w b
        ({⟨.before, b.head.id⟩} + {⟨.after, b.head.id⟩} + {⟨.after, b.head.id⟩}) ["DO0", "ELSE"]
        events s₀ s := by
  refine (h.asks (fun _ ↦ id) (Emitter.flat_operand_self _ _ _)).bind ?_
  rintro events log _ condition ⟨rfl, hevents, -, -⟩
  refine (h.body hindent "DO0").bind ?_
  rintro events₁ log₁ yes₀ yes ⟨hyes, -⟩
  refine (h.body hindent "ELSE").map ?_
  rintro events₂ log₂ no₀ no ⟨hno, -⟩
  have hfirings : firings o w (events ++ (events₁ ++ events₂)) =
      firings o w events₁ ++ firings o w events₂ := by
    rw [firings_append, hevents, List.nil_append, firings_append]
  refine ⟨by simp, ?_, ?_⟩
  · have hafter := hmarked.woven_indented hid hindent .after
    have hwoven := ((((((hmarked.woven hid .before).append
      (.same ("ifelse " ++ condition ++ " ["))).append (hafter.append hyes.woven)).append
      (.same "] [")).append (hafter.append hno.woven)).append (.same "]"))
    rw [hfirings, Firing.allMarks_append]
    convert hwoven using 1
    · abel
    · simp [String.append_assoc, Compiler.view, Options.bare, Options.beforeOf, Options.afterOf,
        Options.indented]
    · simp [String.append_assoc, Compiler.view, Options.fitted, Options.beforeOf, Options.afterOf,
        Options.indented]
  · rw [hfirings, List.map_append, ← Multiset.coe_add]
    simpa using add_le_add hyes.within hno.within

/-- A return on a condition. -/
theorem conditionalReturn : RecipesSimulate snippet o b
    (Emitter.conditionalReturn ((Compiler.bare o).view e b))
    (Emitter.conditionalReturn ((Compiler.fitted o snippet).view e b)) fun events _ s₀ s ↦
      s₀ ≠ "" ∧ CodeGrown snippet o w b {⟨.after, b.head.id⟩} [] events s₀ s := by
  rw [Emitter.conditionalReturn_eq, Emitter.conditionalReturn_eq]
  refine (h.asks (fun _ ↦ id) Emitter.flat_returnParts).map ?_
  rintro events log _ ⟨condition, exit⟩ ⟨rfl, hevents, -, -⟩
  refine ⟨by simp, ?_, by simp [hevents]⟩
  have hwoven := ((Woven.same ("if " ++ condition ++ " [")).append
    (hmarked.woven_indented hid hindent .after)).append (.same (o.indent ++ exit ++ "\n]"))
  rw [hevents, Firing.allMarks_nil]
  convert hwoven using 1
  · abel
  · simp [String.append_assoc, Compiler.view, Options.bare, Options.afterOf, Options.indented]
  · simp [String.append_assoc, Compiler.view, Options.fitted, Options.afterOf, Options.indented]

end

/-- A statement that places its snippets itself, or that is put between them. -/
theorem statement (hmarked : Marked snippet marker) (hid : '\n' ∉ b.head.id.toList)
    {f : View → Recipe String} {manual : Bool} (he : e = { Emitter.statement f with manual })
    {own : Multiset Mark} {inputs : List String} (hinputs : inputs.Nodup)
    (hown : (if manual then own else {⟨.before, b.head.id⟩} + own + {⟨.after, b.head.id⟩}) =
      ↑(Firing.marks ⟨b, statementSites b.head.kind⟩))
    (hf : RecipesSimulate snippet o b (f ((Compiler.bare o).view e b))
      (f ((Compiler.fitted o snippet).view e b)) fun events _ s₀ s ↦
        s₀ ≠ "" ∧ CodeGrown snippet o w b own inputs events s₀ s) :
    RecipesSimulate snippet o b (e.emit ((Compiler.bare o).view e b))
      (e.emit ((Compiler.fitted o snippet).view e b)) fun events _ ↦
        EmissionGrown snippet o w b e events := by
  have hemit (v : View) : e.emit v = f v >>= fun code ↦ pure (.statement code) := by rw [he]; rfl
  rw [hemit, hemit]
  refine hf.map fun events _ s₀ s ⟨hne, hgrown⟩ ↦ ?_
  refine .statement (by rw [he]; rfl) hne ?_ (hgrown.within.trans (treeOf_le b.inputs hinputs))
  rw [show e.manual = manual by rw [he]]
  cases manual with
  | true => exact hown ▸ hgrown.woven
  | false =>
    have hwoven := hmarked.woven_surround (o := o) hid hgrown.woven
    rw [Options.surround_bare] at hwoven
    rw [if_neg Bool.false_ne_true] at hown ⊢
    rw [← hown]
    convert hwoven using 1
    abel

/-- An ordinary statement has two snippets. -/
theorem statementSites_of_notMem {kind : String} (h : kind ∉ Emitter.snippetKinds) :
    statementSites kind = [.before, .after] := by
  simp only [Emitter.snippetKinds, List.mem_cons, List.not_mem_nil, or_false, not_or] at h
  simp [statementSites, loopKinds, h]

/-- An emitter that has nothing to do with snippets. -/
theorem flat (h : NeighboursSimulate snippet o w b) (hmarked : Marked snippet marker)
    (hid : '\n' ∉ b.head.id.toList) (he : Emitter.standard? b.head.kind = some e)
    (hkind : b.head.kind ∉ Emitter.snippetKinds) :
    RecipesSimulate snippet o b (e.emit ((Compiler.bare o).view e b))
      (e.emit ((Compiler.fitted o snippet).view e b)) fun events _ ↦
        EmissionGrown snippet o w b e events := by
  obtain ⟨hmanual, hflat⟩ := Emitter.isFlat_standard he hkind
  rw [Emitter.emit_congr he (agrees_view snippet o b e) fun hmem ↦ absurd hmem hkind]
  refine (h.asks (fun _ ↦ id) (hflat _)).mono ?_
  rintro events log _ emission ⟨rfl, hevents, hleaves, -⟩
  cases hshape : e.shape with
  | value =>
    rw [hshape] at hleaves
    cases emission with
    | value code order => exact .value hshape hmanual hevents
    | statement | hoisted => exact hleaves.elim
  | statement =>
    rw [hshape] at hleaves
    cases emission with
    | statement code =>
      obtain ⟨s, rfl⟩ := hleaves
      refine .statement hshape (by simp) ?_ (hevents ▸ Multiset.zero_le _)
      have hwoven := hmarked.woven_surround (o := o) hid (.same s)
      rw [Options.surround_bare] at hwoven
      rw [hmanual, hevents, Firing.allMarks_nil, statementSites_of_notMem hkind]
      exact hwoven
    | value | hoisted => exact hleaves.elim

/-- Every standard emitter but that of definitions. -/
theorem emit (h : NeighboursSimulate snippet o w b) (hmarked : Marked snippet marker)
    (hindent : ∀ c ∈ o.indent.toList, Text.isGap c) (hid : '\n' ∉ b.head.id.toList)
    (he : Emitter.standard? b.head.kind = some e) (hdefinition : ¬ b.head.isDefinition) :
    RecipesSimulate snippet o b (e.emit ((Compiler.bare o).view e b))
      (e.emit ((Compiler.fitted o snippet).view e b)) fun events _ ↦
        EmissionGrown snippet o w b e events := by
  have hdefinition := Head.isDefinition_iff.not.1 hdefinition
  by_cases hkind : b.head.kind ∈ Emitter.snippetKinds
  · obtain ⟨hloop, f, head, rfl, hf⟩ | ⟨hbranch, rfl⟩ | ⟨hreturn, rfl⟩ :=
      Emitter.standard?_snippetKinds he hkind hdefinition
    · refine statement hmarked hid rfl (by simp) ?_ (h.loop hmarked hindent hid hf rfl)
      rw [statementSites, if_pos hloop]
      rfl
    · refine statement hmarked hid rfl (by simp) ?_ (h.branch hmarked hindent hid)
      rw [hbranch]
      rfl
    · refine statement hmarked hid rfl (by simp) ?_ (h.conditionalReturn hmarked hindent hid)
      rw [hreturn]
      rfl
  · exact h.flat hmarked hid he hkind

/-! ## Definitions -/

theorem definitionSites_cons {statements result : String} {log : List Exchange}
    (hlog : ∀ x ∈ log, ∃ q s, x = .answered q s ∧ ∃ param, q = .variable param) :
    definitionSites (.answered (.body "STACK") statements ::
        .answered (.value "RETURN" .loose) result :: log) =
      if statements ≠ "" ∧ result ≠ "" then [.before, .after, .trap, .before, .after]
      else [.before, .after, .trap] := by
  have hnone (q : Request) (hq : ∀ param, q ≠ .variable param) :
      log.any (·.answers q) = false := by
    rw [List.any_eq_false]
    intro x hx
    obtain ⟨_, s, rfl, param, rfl⟩ := hlog x hx
    simp [Exchange.answers, (hq param).symm]
  rw [definitionSites, List.any_cons, List.any_cons, List.any_cons, List.any_cons,
    hnone (.body "STACK") (by simp), hnone (.value "RETURN" .loose) (by simp)]
  simp [Exchange.answers]

theorem asks_params (params : List String) :
    Recipe.Asks (fun q ↦ ∃ param, q = .variable param) (fun _ ↦ True)
      (params.mapM fun param ↦ do return " :" ++ (← variableName param)) := by
  refine asks_mapM_self (fun param ↦ ?_) params
  exact ⟨⟨param, rfl⟩, fun _ ↦ trivial⟩

/-- The snippets of a definition, those that are there once more apart. -/
theorem marks_definition (b : Block) (again : Prop) [Decidable again] :
    (↑(Firing.marks ⟨b, if again then [.before, .after, .trap, .before, .after]
      else [.before, .after, .trap]⟩) : Multiset Mark) =
        {⟨.before, b.head.id⟩} + {⟨.after, b.head.id⟩} + {⟨.trap, b.head.id⟩} +
          if again then {⟨.before, b.head.id⟩} + {⟨.after, b.head.id⟩} else 0 := by
  split <;> rfl

/-- What a definition has more than its statements: the snippets of the block, and those around it
once more before it returns. -/
theorem definitionCode (h : NeighboursSimulate snippet o w b) (hmarked : Marked snippet marker)
    (hindent : ∀ c ∈ o.indent.toList, Text.isGap c) (hid : '\n' ∉ b.head.id.toList)
    (name : String) : RecipesSimulate snippet o b
      (Emitter.definitionCode ((Compiler.bare o).view e b) name)
      (Emitter.definitionCode ((Compiler.fitted o snippet).view e b) name) fun events log s₀ s ↦
        CodeGrown snippet o w b ↑(Firing.marks ⟨b, definitionSites log⟩) ["STACK"] events
          (s₀ ++ "\n") (s ++ "\n") := by
  refine (h.body hindent "STACK").bind ?_
  rintro events _ statements₀ statements ⟨hgrown, rfl⟩
  refine (Recipe.Simulates.answer (h.respond (q := .value "RETURN" .loose) trivial)).bind ?_
  rintro _ _ _ result ⟨below, rfl, rfl, rfl, hbelow⟩
  refine (h.asks (fun q hq ↦ ?_) (asks_params b.head.mutation.params)).map ?_
  · obtain ⟨param, rfl⟩ := hq
    trivial
  rintro events₃ log₃ _ params ⟨rfl, hevents₃, -, hlog₃⟩
  have hfirings : firings o w (events ++ (below ++
      [.exchange b (.answered (.value "RETURN" .loose) result)] ++ events₃)) =
      firings o w events := by
    simp [hbelow, hevents₃]
  refine ⟨?_, by rw [hfirings]; simpa using hgrown.within⟩
  rw [hfirings, List.cons_append, List.nil_append, List.cons_append, List.nil_append,
    definitionSites_cons hlog₃, marks_definition]
  have hopening := hmarked.woven_indented_pair hid hindent .before .after
  simp only [Compiler.view, Options.bare, Options.fitted, Options.beforeOf, Options.afterOf,
    Options.trapOf, Options.indented, Option.map_some, Option.map_none, Option.getD_some,
    Option.getD_none, String.append_empty, beq_iff_eq, hmarked.append_instantiate_ne_empty,
    if_false, if_true, Bool.and_eq_true, bne_iff_ne, ite_self]
  have hclosing := hopening.ite (statements ≠ "" ∧ result ≠ "")
  have hresult : Woven (snippetLine snippet) 0
      (if result = "" then "" else o.indent ++ "op " ++ result ++ "\n")
      (if result = "" then "" else o.indent ++ "op " ++ result ++ "\n") := by
    split
    · exact .empty
    · exact .same _
  have hwoven := ((((((Woven.same ("to " ++ name ++ String.join params)).append hopening).append
    (hmarked.woven_indented hid hindent .trap)).append hgrown.woven).append hclosing).append
    hresult).append (.same "end")
  convert hwoven using 1
  · abel
  · simp [String.append_assoc]
  · simp [String.append_assoc]

end NeighboursSimulate

end Turtle

import Mathlib.Data.List.Forall2
import Mathlib.Data.List.Nodup
import Turtle.Proofs.Compile.Emitted

/-!
# References to variables

A variable is referred to by its id or, as the parameters of procedures are, by its name.  Both are
looked up alike, and what is the id of a variable is taken as that.  So a variable has one identifier
for both exactly if its name is not the id of another variable.
-/

namespace Turtle

/-! ## The table of names -/

namespace Names

/-- What has been named in advance has an identifier. -/
theorem lookup_declare (n : Names) (kind : NameKind) {names : List String} {name : String}
    (h : name ∈ names) : ∃ chosen,
      (n.declare kind names).given.lookup (n.key kind name) = some chosen := by
  unfold declare
  induction names generalizing n with
  | nil => cases h
  | cons first rest ih =>
    have hfollows := n.follows_get kind first
    rcases List.mem_cons.1 h with rfl | h
    · refine ⟨(n.get kind name).1, ?_⟩
      exact (follows_declare _ kind rest).grows.given _ _ (n.lookup_get kind name)
    · obtain ⟨chosen, hchosen⟩ := ih (n.get kind first).2 h
      rw [key_of_vars_eq hfollows.vars] at hchosen
      exact ⟨chosen, hchosen⟩

end Names

namespace Workspace

variable {w : Workspace} {v : Variable} {n : Names}

theorem vars_of_follows (h : w.start.names.Follows n) :
    n.vars = (w.vars.map fun u ↦ (u.id, u.name)).reverse := h.vars.trans w.follows_start.vars

/-- A reference by id is one to the variable. -/
theorem key_id (hids : (w.vars.map (·.id)).Nodup) (hv : v ∈ w.vars)
    (h : w.start.names.Follows n) : n.key .variable v.id = (.variable, lower v.name) := by
  have hlookup : n.vars.lookup v.id = some v.name := by
    rw [vars_of_follows h]
    refine Table.lookup_of_mem ?_ (List.mem_reverse.2 (List.mem_map_of_mem hv))
    rw [List.map_reverse, List.map_map]
    exact List.nodup_reverse.2 hids
  rw [Names.key, Names.resolve, hlookup, Option.getD_some]

/-- A reference by name is one to the variable, unless another variable has the name as its id. -/
theorem key_name (hv : ∀ u ∈ w.vars, u.id = v.name → u = v) (h : w.start.names.Follows n) :
    n.key .variable v.name = (.variable, lower v.name) := by
  rw [Names.key, Names.resolve]
  cases hlookup : n.vars.lookup v.name with
  | none => rfl
  | some name =>
    have hmem := Table.mem_of_lookup hlookup
    rw [vars_of_follows h, List.mem_reverse] at hmem
    obtain ⟨u, hu, heq⟩ := List.mem_map.1 hmem
    obtain ⟨hid, rfl⟩ := Prod.mk.inj heq
    rw [hv u hu hid, Option.getD_some]

/-- When a pass starts, every variable has an identifier. -/
theorem lookup_variable (hv : v ∈ w.vars) : ∃ chosen,
    w.start.names.given.lookup (w.start.names.key .variable v.id) = some chosen := by
  let named := Names.standard.setVariables (w.vars.map fun u ↦ (u.id, u.name))
  obtain ⟨chosen, hchosen⟩ := named.lookup_declare .variable (List.mem_map_of_mem (f := (·.id)) hv)
  have hgrows := (Names.follows_declare (named.declare .variable (w.vars.map (·.id))) .procedure
    w.procedureNames).grows
  rw [Names.key_of_vars_eq (n := named) w.follows_start.vars]
  exact ⟨chosen, hgrows.given _ _ hchosen⟩

theorem lookup_start (hids : (w.vars.map (·.id)).Nodup) (hv : v ∈ w.vars) :
    ∃ chosen, w.start.names.given.lookup (.variable, lower v.name) = some chosen := by
  rw [← key_id hids hv (.refl _)]
  exact lookup_variable hv

/-- References by id and by name have the same identifier exactly if the name is no other id. -/
theorem get_name_eq_get_id_iff (hids : (w.vars.map (·.id)).Nodup)
    (hnames : (w.vars.map fun u ↦ lower u.name).Nodup) (hv : v ∈ w.vars)
    (h : w.start.names.Follows n) :
    (n.get .variable v.name).1 = (n.get .variable v.id).1 ↔
      ∀ u ∈ w.vars, u.id = v.name → u = v := by
  have hanswer (u : Variable) (hu : u ∈ w.vars) {nameOrId : String}
      (hkey : n.key .variable nameOrId = (.variable, lower u.name)) :
      ∃ chosen, n.given.lookup (.variable, lower u.name) = some chosen ∧
        n.get .variable nameOrId = (chosen, n) := by
    obtain ⟨chosen, hchosen⟩ := lookup_start hids hu
    have hchosen := h.grows.given _ _ hchosen
    exact ⟨chosen, hchosen, Names.get_of_lookup (hkey ▸ hchosen)⟩
  obtain ⟨chosen, hchosen, hget⟩ := hanswer v hv (key_id hids hv h)
  rw [hget]
  constructor
  · intro heq u hu hid
    -- Different variables have different identifiers, so `u` must be `v`.
    obtain ⟨chosen', hchosen', hget'⟩ := hanswer u hu (key_id hids hu h)
    rw [← hid, hget'] at heq
    have hlower : lower u.name = lower v.name := by
      by_contra hne
      refine (h.consistent w.sound_start.names).lower_ne hchosen' hchosen ?_ (congrArg lower heq)
      exact fun hkey ↦ hne (Prod.mk.inj hkey).2
    exact List.inj_on_of_nodup_map hnames hu hv hlower
  · intro hown
    obtain ⟨chosen', hchosen', hget'⟩ := hanswer v hv (key_name hown h)
    rw [hget']
    exact Option.some.inj (hchosen'.symm.trans hchosen)

end Workspace

/-! ## What emitters write for variables -/

namespace Recipe

variable {α β : Type} {q : Request} {Q : String → α → Prop} {log : List Exchange}

/-- Whatever the answers are, the recipe asks this, and `Q` holds of the answer and the result. -/
def Poses (q : Request) (Q : String → α → Prop) : Recipe α → Prop
  | done _ => False
  | fail _ => True
  | ask q' next =>
    (q' = q ∧ ∀ s, (next s).Meets (fun _ ↦ True) (Q s)) ∨ ∀ s, (next s).Poses q Q
  | hoist _ _ next => next.Poses q Q

theorem Poses.of_yields {r : Recipe α} {a : α} (h : r.Poses q Q) (hyields : r.Yields log a) :
    ∃ s, .answered q s ∈ log ∧ Q s a := by
  induction hyields with
  | done => exact h.elim
  | @ask _ next answer log a hyields ih =>
    rcases h with ⟨rfl, hmeets⟩ | h
    · refine ⟨answer, List.mem_cons_self, ?_⟩
      exact ((hmeets answer).of_yields hyields fun _ _ _ ↦ trivial).1
    · obtain ⟨s, hs, hQ⟩ := ih (h answer)
      exact ⟨s, List.mem_cons_of_mem _ hs, hQ⟩
  | hoist _ ih =>
    obtain ⟨s, hs, hQ⟩ := ih h
    exact ⟨s, List.mem_cons_of_mem _ hs, hQ⟩

theorem poses_variable {nameOrId : String} {f : String → Recipe α}
    (h : ∀ s, (f s).Meets (fun _ ↦ True) (Q s)) :
    (variableName nameOrId >>= f).Poses (.variable nameOrId) Q := .inl ⟨rfl, h⟩

theorem poses_operand {input : String} {outer : Logo.Order} {default : String}
    {f : String → Recipe α} (h : ∀ code, (f code).Poses q Q) :
    (operand input outer default >>= f).Poses q Q := .inr fun _ ↦ h _

/-- What is asked on the way is asked if one goes on with the result. -/
theorem Poses.bind {r : Recipe α} {f : α → Recipe β} {Q' : String → β → Prop} (h : r.Poses q Q)
    (hf : ∀ s a, Q s a → (f a).Meets (fun _ ↦ True) (Q' s)) : (r >>= f).Poses q Q' := by
  induction r with
  | done => exact h.elim
  | fail => trivial
  | ask q' next ih =>
    rcases h with ⟨rfl, hmeets⟩ | h
    · exact .inl ⟨rfl, fun s ↦ meets_bind.2 ((hmeets s).mono (hf s))⟩
    · exact .inr fun s ↦ ih s (h s)
  | hoist name code next ih => exact ih h

theorem Yields.of_mapM {γ : Type} {xs : List γ} {g : γ → Recipe α} {as : List α}
    (h : (xs.mapM g).Yields log as) :
    List.Forall₂ (fun x a ↦ ∃ own, own ⊆ log ∧ (g x).Yields own a) xs as := by
  induction xs generalizing log as with
  | nil =>
    cases h
    exact .nil
  | cons x xs ih =>
    rw [List.mapM_cons] at h
    obtain ⟨own, _, a, rfl, hx, h⟩ := of_bind h
    obtain ⟨rest, _, as', rfl, hxs, h⟩ := of_bind h
    cases h
    rw [List.append_nil]
    refine .cons ⟨own, List.subset_append_left _ _, hx⟩ ((ih hxs).imp ?_)
    rintro y b ⟨own', hsub, hy⟩
    exact ⟨own', List.Subset.trans hsub (List.subset_append_right _ _), hy⟩

end Recipe

/-- Identifiers need no escapes. -/
theorem Logo.quote_of_isIdentifier {s : String} (h : isIdentifier s) : Logo.quote s = "\"" ++ s := by
  have hescape (l : List Char) (hl : ∀ c ∈ l, Identifier.isLegalChar c) : Word.escape l = l := by
    induction l with
    | nil => rfl
    | cons c l ih =>
      obtain ⟨hc, hl⟩ := List.forall_mem_cons.1 hl
      have hdelimiter : ¬ Word.isDelimiter c := by
        simp only [Word.isDelimiter, Bool.or_eq_true, beq_iff_eq]
        rintro (((((rfl | rfl) | rfl) | rfl) | rfl) | rfl) <;> revert hc <;> decide
      rw [Word.escape, if_neg hdelimiter, ih hl]
  rw [Logo.quote, Word.quote, hescape _ fun c hc ↦ Identifier.isLegalChar_of_mem h hc]
  exact String.toList_inj.1 (by simp)

namespace Emitter

open Recipe

/-- The kinds of blocks that refer to a variable by a field, with what stands before the identifier
in what is written for them. -/
def referenceMarks : List (String × String) := [
  ("variables_get", ":"), ("variables_get_dynamic", ":"), ("variables_set", "\""),
  ("variables_set_dynamic", "\""), ("math_change", "\""), ("text_append", "\""),
  ("controls_for", "["), ("controls_forEach", "\"")]

/-- A text that shows an identifier behind a mark. -/
def Shows (mark s text : String) : Prop := ∃ before after, text = before ++ mark ++ s ++ after

/-- The emitter asks for the variable in its field and shows its identifier. -/
def Refers (mark : String) (e : Emitter) : Prop :=
  ∀ v, (e.emit v).Poses (.variable (v.field "VAR")) fun s emission ↦
    isIdentifier s → Shows mark s emission.text

variable {mark : String}

theorem refers_value {f : View → Recipe (String × Logo.Order)}
    (h : ∀ v, (f v).Poses (.variable (v.field "VAR")) fun s written ↦
      isIdentifier s → Shows mark s written.1) : Refers mark (.value f) := fun v ↦
  (h v).bind fun _ _ hshows ↦ hshows

theorem refers_statement {f : View → Recipe String}
    (h : ∀ v, (f v).Poses (.variable (v.field "VAR")) fun s code ↦
      isIdentifier s → Shows mark s code) : Refers mark (.statement f) := fun v ↦
  (h v).bind fun _ _ hshows ↦ hshows

theorem refers_variableValue : Refers ":" (.value variableValue) :=
  refers_value fun _ ↦ poses_variable fun s _ ↦ ⟨"", "", by simp⟩

theorem refers_assignment : Refers "\"" (.statement assignment) := by
  refine refers_statement fun v ↦ poses_operand fun value ↦ poses_variable fun s hs ↦ ?_
  refine ⟨"make ", " " ++ value ++ "\n", ?_⟩
  rw [Logo.quote_of_isIdentifier hs]
  simp only [String.append_assoc]

theorem refers_increment : Refers "\"" (.statement increment) := by
  refine refers_statement fun v ↦ poses_operand fun delta ↦ poses_variable fun s _ ↦ ?_
  refine ⟨"make ", " " ++ ("(ifelse numberp :" ++ s ++ " :" ++ s ++ " 0)") ++ " + " ++ delta ++
    "\n", ?_⟩
  simp only [← String.append_assoc]
  rfl

theorem refers_append : Refers "\"" (.statement append) := by
  refine refers_statement fun v ↦ poses_variable fun s ↦ meets_operand (by decide) fun text _ _ ↦ ?_
  refine ⟨"make ", " word :" ++ s ++ " " ++ text ++ "\n", ?_⟩
  simp only [← String.append_assoc]
  rfl

theorem refers_countingLoop : Refers "[" (.statement countingLoop) := by
  refine refers_statement fun v ↦ poses_variable fun s ↦ ?_
  refine meets_operand (by decide) fun first _ ↦ meets_operand (by decide) fun last _ ↦
    meets_operand (by decide) fun step _ ↦ meets_body fun body _ _ ↦ ?_
  refine ⟨"for ", " [" ++ first ++ "] [" ++ last ++ "] [" ++ step ++ "]] [\n" ++
    v.options.loopBody v.manual v.head.id body ++ "]\n", ?_⟩
  simp only [← String.append_assoc]
  rfl

theorem refers_elementLoop : Refers "\"" (.statement elementLoop) := by
  refine refers_statement fun v ↦ poses_variable fun s ↦ ?_
  refine meets_operand (by decide) fun list _ ↦ meets_body fun body _ _ ↦ ?_
  refine ⟨"foreach " ++ list ++ " [\n" ++ v.options.indent ++ "make ", " ?\n" ++
    v.options.loopBody v.manual v.head.id body ++ "]\n", ?_⟩
  have hmake : "make \"" = "make " ++ "\"" := rfl
  simp only [hmake, ← String.append_assoc]

/-- The kinds that refer to a variable do so as the table says. -/
theorem refers_standard : ∀ entry ∈ referenceMarks, ∀ e, standard? entry.1 = some e →
    Refers entry.2 e := by
  have hentry {kind mark : String} {e' : Emitter} (h : Refers mark e')
      (hkind : standard? kind = some e') (e : Emitter) (he : standard? kind = some e) :
      Refers mark e := Option.some.inj (hkind.symm.trans he) ▸ h
  simp only [referenceMarks, List.forall_mem_cons]
  refine ⟨?_, ?_, ?_, ?_, ?_, ?_, ?_, ?_, nofun⟩
  · exact hentry refers_variableValue rfl
  · exact hentry refers_variableValue rfl
  · exact hentry refers_assignment rfl
  · exact hentry refers_assignment rfl
  · exact hentry refers_increment rfl
  · exact hentry refers_append rfl
  · exact hentry refers_countingLoop rfl
  · exact hentry refers_elementLoop rfl

theorem exists_identifiers {log : List Exchange} {params texts : List String}
    (h : List.Forall₂ (fun param text ↦ ∃ own, own ⊆ log ∧
      (variableName param >>= fun s ↦ pure (" :" ++ s)).Yields own text) params texts) :
    ∃ identifiers : List String, texts = identifiers.map (" :" ++ ·) ∧
      List.Forall₂ (fun param s ↦ .answered (.variable param) s ∈ log) params identifiers := by
  induction h with
  | nil => exact ⟨[], rfl, .nil⟩
  | cons hfirst _ ih =>
    obtain ⟨own, hsub, hyields⟩ := hfirst
    obtain ⟨identifiers, rfl, hidentifiers⟩ := ih
    cases hyields with
    | @ask _ _ s _ _ hdone =>
      cases hdone
      exact ⟨s :: identifiers, rfl, .cons (hsub List.mem_cons_self) hidentifiers⟩

/-- What opens a definition: the names of the procedure and of its parameters. -/
def heading (name : String) (params : List String) : String :=
  "to " ++ name ++ String.join (params.map (" :" ++ ·)) ++ "\n"

theorem yields_definitionCode {v : View} {name : String} {log : List Exchange} {code : String}
    (h : (definitionCode v name).Yields log code) :
    ∃ identifiers after, code = heading name identifiers ++ after ∧
      List.Forall₂ (fun param s ↦ .answered (.variable param) s ∈ log)
        v.head.mutation.params identifiers := by
  cases h with
  | @ask _ _ statements log _ h =>
    cases h with
    | @ask _ _ result log _ h =>
      obtain ⟨own, _, params, rfl, hparams, hdone⟩ := Yields.of_bind
        (r := v.head.mutation.params.mapM fun param ↦ do
          return " :" ++ (← variableName param)) h
      obtain ⟨identifiers, rfl, hidentifiers⟩ := exists_identifiers (Yields.of_mapM hparams)
      cases hdone
      refine ⟨identifiers, ?_⟩
      rw [exists_and_right]
      constructor
      · simp only [heading, String.append_assoc]
        exact ⟨_, rfl⟩
      · exact hidentifiers.imp fun param s hmem ↦ by simp [hmem]

/-- The text that a definition registers shows the identifiers of the parameters. -/
theorem yields_heading {v : View} {log : List Exchange} {emission : Emission}
    (h : ((Emitter.definition definitionOf).emit v).Yields log emission) :
    ∃ name identifiers after whole,
      .hoisted name (heading name identifiers ++ after) whole ∈ log ∧
      List.Forall₂ (fun param s ↦ .answered (.variable param) s ∈ log)
        v.head.mutation.params identifiers := by
  rw [emit_definition] at h
  cases h with
  | @ask _ _ name log _ h =>
    obtain ⟨log, _, code, rfl, hcode, hrest⟩ := Yields.of_bind (r := definitionCode v name) h
    obtain ⟨identifiers, after, rfl, hidentifiers⟩ := yields_definitionCode hcode
    cases hrest with
    | @hoist _ _ whole _ _ _ hrest =>
      refine ⟨name, identifiers, after, whole, by simp, hidentifiers.imp fun param s hmem ↦ ?_⟩
      simp [hmem]

end Emitter

/-! ## Passes -/

/-- Every event of a run happens in some state on the way. -/
theorem Steps.exists_moves {indent : String} {p q : Pass} {events : List Event}
    (h : Steps indent p events q) {e : Event} (he : e ∈ events) :
    ∃ r r', p.Follows r ∧ e.Moves indent r r' := by
  induction h with
  | refl => cases he
  | @snoc events r r' _ hsteps hmoves ih =>
    rcases List.mem_append.1 he with he | he
    · exact ih he
    · cases List.mem_singleton.1 he
      exact ⟨r, r', hsteps.follows, hmoves⟩

/-- Whatever refers to a variable by its id or by its name is written with one identifier. -/
structure ReferredAs (events : List Event) (v : Variable) (identifier : String) : Prop where
  answered : ∀ b nameOrId s, .exchange b (.answered (.variable nameOrId) s) ∈ events →
    nameOrId = v.id ∨ nameOrId = v.name → s = identifier
  field : ∀ b log emission, .emitted b log emission ∈ events →
    ∀ entry ∈ Emitter.referenceMarks, b.head.kind = entry.1 →
      b.head.field "VAR" = v.id ∨ b.head.field "VAR" = v.name →
        Emitter.Shows entry.2 identifier emission.text
  parameter : ∀ b log emission, .emitted b log emission ∈ events → b.head.isDefinition →
    ∃ name params after whole,
      .exchange b (.hoisted name (Emitter.heading name params ++ after) whole) ∈ events ∧
      List.Forall₂ (fun param s ↦ param = v.id ∨ param = v.name → s = identifier)
        b.head.mutation.params params

namespace Compiler

variable {o : Options} {w : Workspace} {v : Variable}

/-- A pass in which all answers for a variable are one identifier. -/
theorem referredAs_of_get {identifier : String} {parts : List String} {p : Pass}
    (h : (({ options := o } : Compiler).topBlocks w).run w.start = .ok parts p)
    (hget : ∀ n, w.start.names.Follows n → ∀ nameOrId, nameOrId = v.id ∨ nameOrId = v.name →
      (n.get .variable nameOrId).1 = identifier) :
    ReferredAs (({ options := o } : Compiler).traceOf w) v identifier := by
  obtain ⟨hsteps, hexplained⟩ := traced_topBlocks h
  have hanswered : ∀ b nameOrId s, .exchange b (.answered (.variable nameOrId) s) ∈
      ({ options := o } : Compiler).traceOf w → nameOrId = v.id ∨ nameOrId = v.name →
        s = identifier ∧ isIdentifier s := by
    intro b nameOrId s hmem href
    obtain ⟨r, r', hfollows, hmoves⟩ := hsteps.exists_moves hmem
    obtain ⟨rfl, -⟩ := Prod.mk.inj (show r.name .variable nameOrId = (s, r') from hmoves)
    have hconsistent := hfollows.names.consistent w.sound_start.names
    exact ⟨hget r.names hfollows.names nameOrId href, hconsistent.isIdentifier_get _ _⟩
  constructor
  · intro b nameOrId s hmem href
    exact (hanswered b nameOrId s hmem href).1
  · intro b log emission hmem entry hentry hkind href
    obtain ⟨e, he, hyields, hlog⟩ := hexplained.emitted b log emission hmem
    have hrefers := Emitter.refers_standard entry hentry e (hkind ▸ he)
    obtain ⟨s, hs, hshows⟩ := (hrefers _).of_yields hyields
    obtain ⟨rfl, hidentifier⟩ := hanswered b _ s (hlog _ hs) href
    exact hshows hidentifier
  · intro b log emission hmem hdefinition
    obtain ⟨e, he, hyields, hlog⟩ := hexplained.emitted b log emission hmem
    cases he.symm.trans (Emitter.standard?_of_isDefinition hdefinition)
    obtain ⟨name, params, after, whole, hhoisted, hparams⟩ := Emitter.yields_heading hyields
    refine ⟨name, params, after, whole, hlog _ hhoisted, hparams.imp fun param s hs href ↦ ?_⟩
    exact (hanswered b param s (hlog _ hs) href).1

/-- At any time of a pass, a variable has one identifier, by its id and by its name, exactly if its
name is not the id of another variable, and then all blocks that refer to it are written with that
identifier. -/
theorem one_identifier_iff (hids : (w.vars.map (·.id)).Nodup)
    (hnames : (w.vars.map fun u ↦ lower u.name).Nodup) (hv : v ∈ w.vars) :
    (∀ u ∈ w.vars, u.id = v.name → u = v) ↔ ∃ identifier,
      (∀ n, w.start.names.Follows n → (n.get .variable v.id).1 = identifier ∧
        (n.get .variable v.name).1 = identifier) ∧
      ∀ o parts p, (({ options := o } : Compiler).topBlocks w).run w.start = .ok parts p →
        ReferredAs (({ options := o } : Compiler).traceOf w) v identifier := by
  constructor
  · intro hown
    obtain ⟨identifier, hlookup⟩ := Workspace.lookup_start hids hv
    have hget : ∀ n, w.start.names.Follows n → (n.get .variable v.id).1 = identifier ∧
        (n.get .variable v.name).1 = identifier := by
      intro n hn
      have hid : (n.get .variable v.id).1 = identifier := by
        rw [Names.get_of_lookup (Workspace.key_id hids hv hn ▸ hn.grows.given _ _ hlookup)]
      exact ⟨hid, ((Workspace.get_name_eq_get_id_iff hids hnames hv hn).2 hown).trans hid⟩
    refine ⟨identifier, hget, fun o parts p h ↦ referredAs_of_get h fun n hn nameOrId href ↦ ?_⟩
    rcases href with rfl | rfl
    · exact (hget n hn).1
    · exact (hget n hn).2
  · rintro ⟨identifier, hget, -⟩
    obtain ⟨hid, hname⟩ := hget w.start.names (.refl _)
    exact (Workspace.get_name_eq_get_id_iff hids hnames hv (.refl _)).1 (hname.trans hid.symm)

end Compiler

/-- A procedure with a parameter `x` that prints the variable with the id `a`. -/
def parametric (vars : List Variable) : Workspace where
  vars
  topBlocks := [
    let read := (Block.ofKind "variables_get" "r").withField "VAR" (.variable (some "a") none)
    let print := (Block.ofKind "text_print" "q").withInput "TEXT" .value (some read)
    (((Block.ofKind "procedures_defnoreturn" "p").withField "NAME" (.text "f")).withMutation
      { params := ["x"] }).withInput "STACK" .statement (some print)]

/-- Two variables, the name of neither being the id of the other. -/
def plainVariables : List Variable := [⟨"a", "x"⟩, ⟨"y", "y"⟩]

theorem Compiler.one_identifier_plain : ∃ identifier,
    (∀ n, (parametric plainVariables).start.names.Follows n →
      (n.get .variable "a").1 = identifier ∧ (n.get .variable "x").1 = identifier) ∧
    ∀ o parts p, (({ options := o } : Compiler).topBlocks (parametric plainVariables)).run
        (parametric plainVariables).start = .ok parts p →
      ReferredAs (({ options := o } : Compiler).traceOf (parametric plainVariables)) ⟨"a", "x"⟩
        identifier :=
  (Compiler.one_identifier_iff (v := ⟨"a", "x"⟩) (by decide +kernel) (by decide +kernel)
    (by decide)).1 (by decide)

/-- Two variables, the name of one being the id of the other. -/
def crossedVariables : List Variable := [⟨"a", "x"⟩, ⟨"x", "y"⟩]

/-- The procedure prints another variable than its parameter. -/
theorem Compiler.two_identifiers_crossed :
    (crossedVariables.map (·.id)).Nodup ∧ (crossedVariables.map fun u ↦ lower u.name).Nodup ∧
    ⟨"a", "x"⟩ ∈ crossedVariables ∧
    ((parametric crossedVariables).start.names.get .variable "a").1 = "x" ∧
    ((parametric crossedVariables).start.names.get .variable "x").1 = "y" ∧
    ({} : Compiler).program (parametric crossedVariables) = .ok "to f :y\n  pr :x\nend\n" := by
  decide +kernel

end Turtle

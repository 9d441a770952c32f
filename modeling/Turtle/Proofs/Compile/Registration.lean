import Turtle.Proofs.Compile.Trace
import Turtle.Proofs.Emitter.Procedure
import Turtle.Proofs.Identifier.Session

/-!
# What a pass has registered

The state of a pass keeps two promises.  The identifiers of helpers are kept apart from each other
and from those of names, and the definitions are, key by key, those of the helpers that were asked
for and the latest text registered for each procedure.  Both are preserved by every event of a
trace.
-/

namespace Turtle

/-- Whose definition it is: that of the helper of a key, or of the procedure of a name. -/
inductive Owner where
  | helper (key : String)
  | procedure (name : String)
deriving DecidableEq, Repr

namespace Pass

/-! ## Identifiers of helpers -/

/-- What holds of the identifiers that a pass has handed out. -/
structure Sound (p : Pass) : Prop where
  names : p.names.Consistent
  legal : ∀ e ∈ p.helpers, isIdentifier e.2
  taken : ∀ e ∈ p.helpers, lower e.2 ∈ p.names.taken
  apart : ∀ e ∈ p.helpers, ∀ e' ∈ p.helpers, lower e.2 = lower e'.2 → e.1 = e'.1
  foreign : ∀ e ∈ p.helpers, ∀ g ∈ p.names.given, lower e.2 ≠ lower g.2

/-- The text that defines a helper under a name. -/
def helperText (indent : String) (lines : List String) (name : String) : String :=
  reindent indent (replace namePlaceholder name ("\n".intercalate lines))

theorem name_eq (p : Pass) (kind : NameKind) (nameOrId : String) :
    p.name kind nameOrId =
      ((p.names.get kind nameOrId).1, { p with names := (p.names.get kind nameOrId).2 }) := rfl

/-- A helper that was asked for before keeps its name, and any other is given a fresh one and
defined. -/
theorem helper_cases (indent : String) (p : Pass) (key : String) (lines : List String) :
    (∃ chosen, p.helpers.lookup key = some chosen ∧ p.helper indent key lines = (chosen, p)) ∨
    p.helpers.lookup key = none ∧
      ∃ chosen, isIdentifier chosen ∧ p.names.isFree chosen ∧
        p.helper indent key lines = (chosen, {
          names := { p.names with taken := lower chosen :: p.names.taken }
          definitions := p.definitions ++ [(key, helperText indent lines chosen)]
          helpers := (key, chosen) :: p.helpers }) := by
  unfold helper
  cases h : p.helpers.lookup key with
  | some chosen => exact .inl ⟨chosen, rfl, rfl⟩
  | none =>
    obtain ⟨chosen, hlegal, hfree, heq⟩ := p.names.fresh_eq key
    refine .inr ⟨rfl, chosen, hlegal, hfree, ?_⟩
    simp only [heq]
    rfl

namespace Sound

variable {p : Pass}

/-- Nothing has been registered in a pass that has only names. -/
theorem of_names {names : Names} (h : names.Consistent) : ({ names } : Pass).Sound where
  names := h
  legal := nofun
  taken := nofun
  apart := nofun
  foreign := nofun

theorem name (h : p.Sound) (kind : NameKind) (nameOrId : String) :
    (p.name kind nameOrId).2.Sound := by
  have hgrows := p.names.grows_get kind nameOrId
  rw [name_eq]
  refine ⟨h.names.get kind nameOrId, h.legal, fun e he ↦ hgrows.taken _ (h.taken e he), h.apart, ?_⟩
  intro e he g hg
  obtain ⟨chosen, -, heq⟩ | ⟨-, chosen, -, hfree, heq⟩ := p.names.get_cases kind nameOrId
  · rw [heq] at hg
    exact h.foreign e he g hg
  · rw [heq] at hg
    rcases List.mem_cons.1 hg with rfl | hg
    · exact fun hlower ↦ (Names.isFree_iff.1 hfree).1 (hlower ▸ h.taken e he)
    · exact h.foreign e he g hg

theorem helper (h : p.Sound) (indent key : String) (lines : List String) :
    (p.helper indent key lines).2.Sound := by
  obtain ⟨chosen, -, heq⟩ | ⟨-, chosen, hlegal, hfree, heq⟩ := p.helper_cases indent key lines
  · rw [heq]
    exact h
  · rw [heq]
    have hnew : lower chosen ∉ p.names.taken := (Names.isFree_iff.1 hfree).1
    refine ⟨h.names.take hfree, ?_, ?_, ?_, ?_⟩
    · exact List.forall_mem_cons.2 ⟨hlegal, h.legal⟩
    · exact List.forall_mem_cons.2 ⟨List.mem_cons_self, fun e he ↦
        List.mem_cons_of_mem _ (h.taken e he)⟩
    · intro e he e' he' hlower
      rcases List.mem_cons.1 he with rfl | he <;> rcases List.mem_cons.1 he' with rfl | he'
      · rfl
      · exact absurd (hlower ▸ h.taken e' he') hnew
      · exact absurd (hlower ▸ h.taken e he) hnew
      · exact h.apart e he e' he' hlower
    · intro e he g hg
      rcases List.mem_cons.1 he with rfl | he
      · exact fun hlower ↦ hnew (hlower ▸ h.names.taken g hg)
      · exact h.foreign e he g hg

theorem define (h : p.Sound) (name code : String) : (p.define name code).Sound :=
  ⟨h.names, h.legal, h.taken, h.apart, h.foreign⟩

end Sound

end Pass

/-- A later state of a pass. -/
structure Pass.Follows (p q : Pass) : Prop where
  names : p.names.Follows q.names
  sound : p.Sound → q.Sound

namespace Pass.Follows

variable {p q r : Pass}

theorem refl (p : Pass) : p.Follows p := ⟨.refl _, id⟩

theorem trans (h : p.Follows q) (h' : q.Follows r) : p.Follows r :=
  ⟨h.names.trans h'.names, h'.sound ∘ h.sound⟩

theorem name (p : Pass) (kind : NameKind) (nameOrId : String) :
    p.Follows (p.name kind nameOrId).2 :=
  ⟨p.names.follows_get kind nameOrId, fun h ↦ h.name kind nameOrId⟩

theorem helper (indent : String) (p : Pass) (key : String) (lines : List String) :
    p.Follows (p.helper indent key lines).2 := by
  refine ⟨?_, fun h ↦ h.helper indent key lines⟩
  obtain ⟨chosen, -, heq⟩ | ⟨-, chosen, -, hfree, heq⟩ := p.helper_cases indent key lines
  · rw [heq]
    exact .refl _
  · rw [heq]
    refine ⟨⟨fun _ _ h ↦ h, fun word hword ↦ List.mem_cons_of_mem _ hword, rfl⟩, ?_, rfl⟩
    exact fun h ↦ h.take hfree

theorem define (p : Pass) (name code : String) : p.Follows (p.define name code) :=
  ⟨.refl _, fun h ↦ h.define name code⟩

end Pass.Follows

theorem Event.Moves.follows {indent : String} {p q : Pass} {e : Event}
    (hmoves : e.Moves indent p q) : p.Follows q := by
  cases e with
  | emitted => exact hmoves ▸ .refl p
  | exchange b x =>
    cases x with
    | hoisted name code whole => exact hmoves ▸ .define p name whole
    | answered request answer =>
      cases request with
      | value | body => exact hmoves ▸ .refl p
      | «variable» nameOrId =>
        rw [show q = (p.name .variable nameOrId).2 from (congrArg Prod.snd hmoves).symm]
        exact .name p .variable nameOrId
      | procedure name =>
        rw [show q = (p.name .procedure name).2 from (congrArg Prod.snd hmoves).symm]
        exact .name p .procedure name
      | helper key lines =>
        rw [show q = (p.helper indent key lines).2 from (congrArg Prod.snd hmoves).symm]
        exact .helper indent p key lines

theorem Steps.follows {indent : String} {p q : Pass} {events : List Event}
    (h : Steps indent p events q) : p.Follows q := by
  induction h with
  | refl => exact .refl p
  | snoc _ he ih => exact ih.trans he.follows

/-- A procedure whose identifier was asked for has it from then on. -/
theorem Steps.lookup_procedure {indent : String} {p q : Pass} {events : List Event}
    (h : Steps indent p events q) {b : Block} {name chosen : String}
    (hmem : .exchange b (.answered (.procedure name) chosen) ∈ events) :
    q.names.given.lookup (.procedure, lower name) = some chosen := by
  induction h with
  | refl => cases hmem
  | @snoc events q r e _ he ih =>
    rcases List.mem_append.1 hmem with hmem | hmem
    · exact he.follows.names.grows.given _ _ (ih hmem)
    · cases List.mem_singleton.1 hmem
      obtain ⟨rfl, rfl⟩ := Prod.mk.inj (show q.name .procedure name = (chosen, r) from he)
      exact q.names.lookup_get .procedure name

/-! ## The table of definitions -/

/-- A text that was registered as the definition of an identifier, for a block. -/
structure Definition where
  block : Block
  identifier : String
  text : String

/-- The definition that an exchange of a block registers. -/
def Exchange.definition? (b : Block) : Exchange → Option Definition
  | .hoisted name _ whole => some ⟨b, name, whole⟩
  | .answered _ _ => none

/-- The key of the helper that an exchange asks for. -/
def Exchange.helperKey? : Exchange → Option String
  | .answered (.helper key _) _ => some key
  | .answered _ _ | .hoisted _ _ _ => none

/-- An exchange that asks for a helper asks for one of the helpers. -/
def Exchange.Known : Exchange → Prop
  | .answered request _ => request.Known
  | .hoisted _ _ _ => True

namespace Event

/-- The definition that is registered in an event. -/
def registered? : Event → Option Definition
  | exchange b x => x.definition? b
  | emitted _ _ _ => none

/-- The key of the helper that is asked for in an event. -/
def helperKey? : Event → Option String
  | exchange _ x => x.helperKey?
  | emitted _ _ _ => none

/-- A helper that is asked for in an event is one of the helpers. -/
def Known : Event → Prop
  | exchange _ x => x.Known
  | emitted _ _ _ => True

end Event

/-- The text registered last for an identifier. -/
def lastText (definitions : List Definition) (identifier : String) : Option String :=
  (definitions.reverse.find? (·.identifier == identifier)).map (·.text)

theorem lastText_append_singleton (definitions : List Definition) (d : Definition)
    (identifier : String) : lastText (definitions ++ [d]) identifier =
      if d.identifier = identifier then some d.text else lastText definitions identifier := by
  rw [lastText, List.reverse_append, List.reverse_singleton, List.singleton_append,
    List.find?_cons]
  by_cases h : d.identifier = identifier
  · rw [if_pos h, beq_iff_eq.2 h]
    rfl
  · rw [if_neg h, beq_eq_false_iff_ne.2 h]
    rfl

theorem procedureKey_injective {name name' : String}
    (h : Pass.procedureKey name = Pass.procedureKey name') : name = name' := by
  have h := congrArg String.toList h
  simp only [Pass.procedureKey, String.toList_append] at h
  exact String.toList_inj.1 (List.append_cancel_left h)

/-- The key of a helper is not that of a procedure. -/
theorem helper_ne_procedureKey {entry : String × List String} (h : entry ∈ Emitter.helpers)
    (name : String) : entry.1 ≠ Pass.procedureKey name := by
  have hfirst : ∀ entry ∈ Emitter.helpers, entry.1.toList.head? ≠ some '%' := by decide
  intro heq
  refine hfirst entry h ?_
  rw [heq, Pass.procedureKey, String.toList_append]
  rfl

/-- A helper has one definition. -/
theorem lines_unique {entry : String × List String} (h : entry ∈ Emitter.helpers) {key : String}
    {lines : List String} (h' : (key, lines) ∈ Emitter.helpers) (hkey : entry.1 = key) :
    entry.2 = lines := by
  have hunique : ∀ e ∈ Emitter.helpers, ∀ e' ∈ Emitter.helpers, e.1 = e'.1 → e.2 = e'.2 := by
    decide
  exact hunique entry h (key, lines) h' hkey

theorem nodup_concat {α : Type} {l : List α} (h : l.Nodup) {a : α} (ha : a ∉ l) :
    (l ++ [a]).Nodup := by
  rw [List.nodup_append]
  refine ⟨h, by simp, fun b hb c hc ↦ ?_⟩
  rw [List.mem_singleton.1 hc]
  rintro rfl
  exact ha hb

/-- The state records the events: what names stand for, and where each definition comes from. -/
structure Recorded (indent : String) (events : List Event) (p : Pass) : Prop where
  given : ∀ b name chosen, .exchange b (.answered (.procedure name) chosen) ∈ events →
    p.names.given.lookup (.procedure, lower name) = some chosen
  helpers : ∀ key, (p.helpers.lookup key).isSome ↔ key ∈ events.filterMap Event.helperKey?
  nodup : (p.definitions.map (·.1)).Nodup
  helperText : ∀ entry ∈ Emitter.helpers, p.definitions.lookup entry.1 =
    (p.helpers.lookup entry.1).map (Pass.helperText indent entry.2)
  procedureText : ∀ chosen, p.definitions.lookup (Pass.procedureKey chosen) =
    lastText (events.filterMap Event.registered?) chosen
  known : ∀ key ∈ p.definitions.map (·.1),
    key ∈ Emitter.helpers.map (·.1) ∨ ∃ chosen, key = Pass.procedureKey chosen

namespace Recorded

variable {indent : String} {events : List Event} {p : Pass}

theorem start (hdefinitions : p.definitions = []) (hhelpers : p.helpers = []) :
    Recorded indent [] p := by
  refine ⟨?_, ?_, ?_, ?_, ?_, ?_⟩
  · exact fun _ _ _ hmem ↦ nomatch hmem
  · intro key
    simp [hhelpers]
  · simp [hdefinitions]
  · intro entry _
    rw [hdefinitions, hhelpers]
    rfl
  · intro chosen
    rw [hdefinitions]
    rfl
  · simp [hdefinitions]

/-- What names stand for stays, and one event adds no more than its own answer. -/
theorem given_snoc (h : Recorded indent events p) {q : Pass} {e : Event} (hfollows : p.Follows q)
    (hgiven : ∀ b name chosen, e = .exchange b (.answered (.procedure name) chosen) →
      q.names.given.lookup (.procedure, lower name) = some chosen) (b : Block)
    (name chosen : String)
    (hmem : .exchange b (.answered (.procedure name) chosen) ∈ events ++ [e]) :
    q.names.given.lookup (.procedure, lower name) = some chosen := by
  rcases List.mem_append.1 hmem with hmem | hmem
  · exact hfollows.names.grows.given _ _ (h.given b name chosen hmem)
  · exact hgiven b name chosen (List.mem_singleton.1 hmem).symm

/-- An event that neither asks for a helper nor registers anything. -/
theorem snoc (h : Recorded indent events p) {q : Pass} {e : Event}
    (hfollows : p.Follows q) (hhelpers : q.helpers = p.helpers)
    (hdefinitions : q.definitions = p.definitions) (hkey : e.helperKey? = none)
    (hregistered : e.registered? = none)
    (hgiven : ∀ b name chosen, e = .exchange b (.answered (.procedure name) chosen) →
      q.names.given.lookup (.procedure, lower name) = some chosen) :
    Recorded indent (events ++ [e]) q := by
  have hkeys : (events ++ [e]).filterMap Event.helperKey? = events.filterMap Event.helperKey? := by
    simp [hkey]
  have hall : (events ++ [e]).filterMap Event.registered? =
      events.filterMap Event.registered? := by
    simp [hregistered]
  refine ⟨h.given_snoc hfollows hgiven, ?_, ?_, ?_, ?_, ?_⟩
  · rw [hkeys, hhelpers]
    exact h.helpers
  · rw [hdefinitions]
    exact h.nodup
  · rw [hdefinitions, hhelpers]
    exact h.helperText
  · rw [hall, hdefinitions]
    exact h.procedureText
  · rw [hdefinitions]
    exact h.known

section Helper

variable {q : Pass} {b : Block} {key chosen : String} {lines : List String}

theorem mem_helperKeys_snoc {k : String} :
    k ∈ (events ++ [Event.exchange b (.answered (.helper key lines) chosen)]).filterMap
      Event.helperKey? ↔ k ∈ events.filterMap Event.helperKey? ∨ k = key := by
  rw [List.filterMap_append, List.mem_append]
  exact or_congr Iff.rfl List.mem_singleton

theorem registered_snoc :
    (events ++ [Event.exchange b (.answered (.helper key lines) chosen)]).filterMap
      Event.registered? = events.filterMap Event.registered? := by
  rw [List.filterMap_append]
  exact List.append_nil _

/-- A helper that was asked for before. -/
theorem snoc_helper_again (h : Recorded indent events p)
    (hlookup : p.helpers.lookup key = some chosen) :
    Recorded indent (events ++ [.exchange b (.answered (.helper key lines) chosen)]) p := by
  refine ⟨h.given_snoc (.refl p) nofun, fun k ↦ ?_, h.nodup, h.helperText, ?_, h.known⟩
  · rw [mem_helperKeys_snoc, h.helpers k, iff_self_or]
    rintro rfl
    rw [← h.helpers k, hlookup]
    rfl
  · rw [registered_snoc]
    exact h.procedureText

/-- A helper that is asked for the first time. -/
theorem snoc_helper_first (h : Recorded indent events p) (hknown : (key, lines) ∈ Emitter.helpers)
    (hnone : p.helpers.lookup key = none) (hfollows : p.Follows q)
    (hdefinitions : q.definitions = p.definitions ++ [(key, Pass.helperText indent lines chosen)])
    (hhelpers : q.helpers = (key, chosen) :: p.helpers) :
    Recorded indent (events ++ [.exchange b (.answered (.helper key lines) chosen)]) q := by
  have hfree : p.definitions.lookup key = none := by
    rw [h.helperText (key, lines) hknown, hnone]
    rfl
  refine ⟨h.given_snoc hfollows nofun, ?_, ?_, ?_, ?_, ?_⟩
  · intro k
    rw [mem_helperKeys_snoc, ← h.helpers k, hhelpers, List.lookup_cons]
    by_cases hk : k = key
    · simp [hk]
    · rw [beq_eq_false_iff_ne.2 hk, or_iff_left hk]
  · rw [hdefinitions, List.map_append]
    exact nodup_concat h.nodup (Table.notMem_keys_iff.2 hfree)
  · intro entry hentry
    rw [hdefinitions, hhelpers, List.lookup_append, h.helperText entry hentry]
    by_cases hk : entry.1 = key
    · rw [lines_unique hentry hknown hk, hk, hnone, List.lookup_cons_self, List.lookup_cons_self]
      rfl
    · have hne : (entry.1 == key) = false := beq_eq_false_iff_ne.2 hk
      rw [List.lookup_cons, List.lookup_cons, hne, List.lookup_nil, Option.or_none]
  · intro name
    have hne : (Pass.procedureKey name == key) = false :=
      beq_eq_false_iff_ne.2 (helper_ne_procedureKey hknown name).symm
    rw [hdefinitions, registered_snoc, ← h.procedureText name, List.lookup_append,
      List.lookup_cons, hne]
    simp
  · intro k hk
    rw [hdefinitions, List.map_append, List.mem_append] at hk
    rcases hk with hk | hk
    · exact h.known k hk
    · rw [List.mem_singleton.1 hk]
      exact .inl (List.mem_map_of_mem hknown)

theorem snoc_helper (h : Recorded indent events p) (hknown : (key, lines) ∈ Emitter.helpers)
    (hhelper : p.helper indent key lines = (chosen, q)) :
    Recorded indent (events ++ [.exchange b (.answered (.helper key lines) chosen)]) q := by
  have hfollows : p.Follows q := by
    rw [show q = (p.helper indent key lines).2 from (congrArg Prod.snd hhelper).symm]
    exact .helper indent p key lines
  obtain ⟨_, hlookup, heq⟩ | ⟨hnone, _, -, -, heq⟩ := p.helper_cases indent key lines
  · obtain ⟨rfl, rfl⟩ := Prod.mk.inj (heq.symm.trans hhelper)
    exact h.snoc_helper_again hlookup
  · obtain ⟨rfl, rfl⟩ := Prod.mk.inj (heq.symm.trans hhelper)
    exact h.snoc_helper_first hknown hnone hfollows rfl rfl

end Helper

theorem snoc_hoisted (h : Recorded indent events p) (b : Block) (name code whole : String) :
    Recorded indent (events ++ [.exchange b (.hoisted name code whole)]) (p.define name whole) := by
  have hall : (events ++ [Event.exchange b (.hoisted name code whole)]).filterMap Event.registered? =
      events.filterMap Event.registered? ++ [⟨b, name, whole⟩] := List.filterMap_append
  refine ⟨h.given_snoc (.define p name whole) nofun, fun key ↦ ?_, ?_, fun entry hentry ↦ ?_,
    fun chosen ↦ ?_, fun key hkey ↦ ?_⟩
  · rw [List.filterMap_append]
    exact (h.helpers key).trans (by rw [List.mem_append]; exact (or_iff_left List.not_mem_nil).symm)
  · rw [Pass.define, Table.keys_put]
    split
    · exact h.nodup
    · rename_i hnew
      exact nodup_concat h.nodup hnew
  · rw [Pass.define, Table.lookup_put_of_ne (helper_ne_procedureKey hentry name)]
    exact h.helperText entry hentry
  · rw [hall, lastText_append_singleton, Pass.define]
    by_cases hchosen : name = chosen
    · rw [if_pos hchosen, hchosen, Table.lookup_put]
    · rw [if_neg hchosen, Table.lookup_put_of_ne fun heq ↦ hchosen (procedureKey_injective heq).symm]
      exact h.procedureText chosen
  · rw [Pass.define, Table.keys_put] at hkey
    split at hkey
    · exact h.known key hkey
    · rcases List.mem_append.1 hkey with hkey | hkey
      · exact h.known key hkey
      · exact .inr ⟨name, List.mem_singleton.1 hkey⟩

/-- What one event preserves. -/
theorem step (h : Recorded indent events p) {q : Pass} {e : Event} (hmoves : e.Moves indent p q)
    (hknown : e.Known) : Recorded indent (events ++ [e]) q := by
  have hfollows := hmoves.follows
  cases e with
  | emitted =>
    obtain rfl : q = p := hmoves
    exact h.snoc hfollows rfl rfl rfl rfl nofun
  | exchange b x =>
    cases x with
    | hoisted name code whole =>
      obtain rfl : q = p.define name whole := hmoves
      exact h.snoc_hoisted b name code whole
    | answered request answer =>
      cases request with
      | value | body =>
        obtain rfl : q = p := hmoves
        refine h.snoc hfollows rfl rfl rfl rfl ?_
        rintro _ _ _ ⟨⟩
      | «variable» nameOrId =>
        obtain rfl : (p.name .variable nameOrId).2 = q := congrArg Prod.snd hmoves
        refine h.snoc hfollows rfl rfl rfl rfl ?_
        rintro _ _ _ ⟨⟩
      | procedure name =>
        obtain rfl : (p.name .procedure name).2 = q := congrArg Prod.snd hmoves
        obtain rfl : (p.name .procedure name).1 = answer := congrArg Prod.fst hmoves
        refine h.snoc hfollows rfl rfl rfl rfl ?_
        rintro _ _ _ ⟨⟩
        exact p.names.lookup_get .procedure name
      | helper key lines => exact h.snoc_helper hknown hmoves

/-- What a run preserves. -/
theorem run {q : Pass} (h : Recorded indent [] p) (hsteps : Steps indent p events q)
    (hknown : ∀ e ∈ events, e.Known) : Recorded indent events q := by
  induction hsteps with
  | refl => exact h
  | @snoc events q r e _ he ih =>
    have hrecorded := ih fun e' he' ↦ hknown e' (List.mem_append_left _ he')
    exact hrecorded.step he (hknown e (List.mem_append_right _ (List.mem_singleton.2 rfl)))

end Recorded

end Turtle

import Turtle.Proofs.Compile.Emitted

/-!
# Definitions and calls

A program begins with one definition for every helper that its blocks ask for and one for every
procedure that they define.  The names that they open with are told apart by Logo and are no
primitives, and a call begins with the name that the definition of the procedure opens with.
-/

namespace Turtle

namespace Head

/-- Whether the block defines the procedure of a name in lower case. -/
def defines (h : Head) (name : String) : Bool := h.isDefinition && lower (h.field "NAME") == name

end Head

namespace Event

/-- What an emitted block asks for or defines, a procedure by its name in lower case. -/
def subjects : Event → List Owner
  | exchange _ _ => []
  | emitted b log _ =>
    (log.filterMap Exchange.helperKey?).map .helper ++
      if b.head.isDefinition then [.procedure (lower (b.head.field "NAME"))] else []

/-- The text of the definition of a procedure by an emitted block. -/
def textOf? (name : String) : Event → Option String
  | exchange _ _ => none
  | emitted b log _ =>
    if b.head.defines name then
      some (((log.filterMap (·.definition? b)).head?.map (·.text)).getD "")
    else none

end Event

/-- The key of a definition in the state of a pass, for a procedure that of its identifier. -/
def Pass.keyOf (p : Pass) : Owner → String
  | .helper key => key
  | .procedure name => procedureKey ((p.names.given.lookup (.procedure, name)).getD "")

/-- The definitions of a pass agree with the emissions of its trace and with each other. -/
structure DefinitionsAgree (events : List Event) (p : Pass) : Prop where
  /-- No key occurs twice. -/
  nodup : (p.definitions.map (·.1)).Nodup
  /-- There are the definitions of what the blocks ask for and define, and no others. -/
  subjects : ∀ key, key ∈ p.definitions.map (·.1) ↔
    ∃ e ∈ events, ∃ s ∈ e.subjects, p.keyOf s = key
  /-- Different subjects have different keys. -/
  injective : ∀ e ∈ events, ∀ s ∈ e.subjects, ∀ e' ∈ events, ∀ s' ∈ e'.subjects,
    p.keyOf s = p.keyOf s' → s = s'
  /-- The last block that defines a procedure supplies the text. -/
  last : ∀ e ∈ events, ∀ name, .procedure name ∈ e.subjects →
    p.definitions.lookup (p.keyOf (.procedure name)) = events.reverse.findSome? (·.textOf? name)
  /-- Each text opens with a name that is no primitive. -/
  headings : ∀ entry ∈ p.definitions, ∃ name, definedName? entry.2 = some name ∧
    ∀ word ∈ Logo.primitives, lower name ≠ lower word
  /-- Logo tells the names of the definitions apart. -/
  apart : p.definitions.Pairwise fun entry entry' ↦ ∀ name name',
    definedName? entry.2 = some name → definedName? entry'.2 = some name' →
      lower name ≠ lower name'
  /-- A call of a procedure that is defined anywhere begins with the name in its definition. -/
  calls : ∀ b log emission, .emitted b log emission ∈ events → b.head.isCall →
    ∀ e ∈ events, .procedure (lower b.head.callee) ∈ e.subjects →
      ∃ text, p.definitions.lookup (p.keyOf (.procedure (lower b.head.callee))) = some text ∧
        definedName? text = some (calledName emission.text)

/-- The first line of a helper is its heading. -/
theorem exists_heading : ∀ entry ∈ Emitter.helpers, ∃ params others,
    entry.2 = ("to " ++ Pass.namePlaceholder ++ params) :: others ∧
      params.toList.head? = some ' ' := by
  simp only [Emitter.helpers, List.forall_mem_cons]
  exact ⟨⟨_, _, rfl, rfl⟩, ⟨_, _, rfl, rfl⟩, ⟨_, _, rfl, rfl⟩, ⟨_, _, rfl, rfl⟩, ⟨_, _, rfl, rfl⟩,
    List.forall_mem_nil _⟩

theorem intercalate_cons (separator s : String) (l : List String) :
    ∃ rest, separator.intercalate (s :: l) = s ++ rest := by
  cases l with
  | nil => exact ⟨"", by simp⟩
  | cons t l =>
    rw [String.intercalate_cons_cons, String.append_assoc]
    exact ⟨_, rfl⟩

/-- The text of a helper opens with its name. -/
theorem definedName?_helperText (indent : String) {entry : String × List String}
    (h : entry ∈ Emitter.helpers) {name : String} (hname : isIdentifier name) :
    definedName? (Pass.helperText indent entry.2 name) = some name := by
  obtain ⟨params, others, hlines, hparams⟩ := exists_heading entry h
  obtain ⟨rest, htext⟩ := intercalate_cons "\n" ("to " ++ Pass.namePlaceholder ++ params) others
  obtain ⟨s, hs⟩ : ∃ s, params.toList = ' ' :: s := ⟨_, List.eq_cons_of_mem_head? hparams⟩
  have hspace : (params ++ rest).toList = ' ' :: (s ++ rest.toList) := by
    rw [String.toList_append, hs, List.cons_append]
  rw [Pass.helperText, hlines, htext, String.append_assoc,
    ← String.empty_append (s := reindent _ _)]
  exact definedName?_of_opens hname .nil
    (opens_reindent indent hname (opens_replace name _ hspace (.inl rfl)))

namespace Told

variable {options : Options} {events : List Event} {p : Pass}

/-! ## Helpers -/

theorem mem_subjects_helper (h : Told options events p) {key : String} :
    (∃ e ∈ events, .helper key ∈ e.subjects) ↔ (p.helpers.lookup key).isSome := by
  rw [h.recorded.helpers]
  constructor
  · rintro ⟨e, he, hs⟩
    cases e with
    | exchange => cases hs
    | emitted b log emission =>
      rcases List.mem_append.1 hs with hs | hs
      · obtain ⟨key', hkey, heq⟩ := List.mem_map.1 hs
        cases heq
        obtain ⟨x, hx, hxkey⟩ := List.mem_filterMap.1 hkey
        obtain ⟨_, _, _, hlog⟩ := h.explained.emitted b log emission he
        exact List.mem_filterMap.2 ⟨.exchange b x, hlog x hx, hxkey⟩
      · split at hs
        · cases List.mem_singleton.1 hs
        · cases hs
  · intro hkey
    obtain ⟨e, he, hekey⟩ := List.mem_filterMap.1 hkey
    cases e with
    | emitted => cases hekey
    | exchange b x =>
      obtain ⟨log, emission, hemitted, hx⟩ := (h.explained.exchange b x he).resolve_left id
      refine ⟨.emitted b log emission, hemitted, List.mem_append_left _ ?_⟩
      exact List.mem_map_of_mem (List.mem_filterMap.2 ⟨x, hx, hekey⟩)

/-- A helper that is asked for is one of the helpers. -/
theorem exists_lines (h : Told options events p) {e : Event} (he : e ∈ events) {key : String}
    (hs : .helper key ∈ e.subjects) : ∃ lines, (key, lines) ∈ Emitter.helpers := by
  have hkey := (h.recorded.helpers key).1 (h.mem_subjects_helper.1 ⟨e, he, hs⟩)
  obtain ⟨e', he', hkey⟩ := List.mem_filterMap.1 hkey
  have hknown := h.explained.known e' he'
  cases e' with
  | emitted => cases hkey
  | exchange b x =>
    cases x with
    | hoisted => cases hkey
    | answered q s =>
      cases q with
      | helper key' lines =>
        cases hkey
        exact ⟨lines, hknown⟩
      | value | body | «variable» | procedure => cases hkey

/-! ## Procedures -/

/-- What the definition of a procedure by an emitted block says about it. -/
structure Defines (p : Pass) (e : Event) (d : Definition) : Prop where
  definitions : e.definitions = [d]
  given : p.names.given.lookup (.procedure, lower (d.block.head.field "NAME")) = some d.identifier
  heading : definedName? d.text = some d.identifier
  subject : ∀ name, .procedure name ∈ e.subjects ↔ lower (d.block.head.field "NAME") = name
  text : ∀ name, e.textOf? name =
    if lower (d.block.head.field "NAME") = name then some d.text else none

/-- An event that defines no procedure. -/
structure DefinesNone (e : Event) : Prop where
  definitions : e.definitions = []
  subject : ∀ name, .procedure name ∉ e.subjects
  text : ∀ name, e.textOf? name = none

theorem isIdentifier_of_given (h : Told options events p) {key : NameKind × String}
    {chosen : String} (hgiven : p.names.given.lookup key = some chosen) : isIdentifier chosen :=
  h.sound.names.legal (key, chosen) (Table.mem_of_lookup hgiven)

theorem filterMap_definition?_eq_nil {b : Block} {log : List Exchange}
    (h : ∀ x ∈ log, ∃ q s, x = .answered q s ∧ q.Known) :
    log.filterMap (·.definition? b) = [] := by
  rw [List.filterMap_eq_nil_iff]
  intro x hx
  obtain ⟨q, s, rfl, -⟩ := h x hx
  rfl

theorem procedure_mem_subjects {b : Block} {log : List Exchange} {emission : Emission}
    {name : String} : .procedure name ∈ (Event.emitted b log emission).subjects ↔
      b.head.isDefinition ∧ lower (b.head.field "NAME") = name := by
  rw [Event.subjects, List.mem_append]
  split
  · rename_i hdefinition
    simp [hdefinition, eq_comm]
  · rename_i hdefinition
    simp [hdefinition]

theorem defines_cases (h : Told options events p) {e : Event} (he : e ∈ events) :
    (∃ d, Defines p e d) ∨ DefinesNone e := by
  cases e with
  | exchange => exact .inr ⟨rfl, fun _ ↦ List.not_mem_nil, fun _ ↦ rfl⟩
  | emitted b log emission =>
    rcases h.explained.emitted_cases he with
      ⟨hdefinition, name, log', code, whole, rfl, hopens, hlog⟩ | ⟨hdefinition, hlog⟩
    · obtain ⟨_, _, _, hevents⟩ := h.explained.emitted b _ emission he
      have hgiven := h.recorded.given b _ name (hevents _ List.mem_cons_self)
      have hnone := filterMap_definition?_eq_nil (b := b) hlog
      obtain ⟨rest, rfl⟩ := h.explained.whole b name code whole
        (hevents _ (List.mem_cons_of_mem _ (List.mem_append_right _ List.mem_cons_self)))
      have hdefinitions : (Exchange.answered (.procedure (b.head.field "NAME")) name ::
          (log' ++ [.hoisted name code (b.comments options.commentWidth ++ code ++ rest)])).filterMap
            (·.definition? b) = [⟨b, name, b.comments options.commentWidth ++ code ++ rest⟩] := by
        rw [List.filterMap_cons_none rfl, List.filterMap_append, hnone]
        rfl
      refine .inl ⟨⟨b, name, b.comments options.commentWidth ++ code ++ rest⟩, hdefinitions, hgiven,
        ?_, fun name' ↦ ?_, fun name' ↦ ?_⟩
      · rw [String.append_assoc]
        exact definedName?_of_opens (h.isIdentifier_of_given hgiven) (b.remarks_comments _)
          (hopens.append rest)
      · rw [procedure_mem_subjects]
        exact and_iff_right hdefinition
      · rw [Event.textOf?, hdefinitions]
        simp [Head.defines, hdefinition]
    · refine .inr ⟨filterMap_definition?_eq_nil hlog, fun name hs ↦ ?_, fun name ↦ ?_⟩
      · exact hdefinition (procedure_mem_subjects.1 hs).1
      · simp [Event.textOf?, Head.defines, hdefinition]

/-- The text registered last for the identifier of a procedure is that of the last block that
defines it. -/
theorem lastText_eq (h : Told options events p) {name chosen : String}
    (hgiven : p.names.given.lookup (.procedure, name) = some chosen) :
    lastText (events.filterMap Event.registered?) chosen =
      events.reverse.findSome? (·.textOf? name) := by
  have hcases : ∀ e ∈ events, (∃ d, Defines p e d) ∨ DefinesNone e := fun e he ↦ h.defines_cases he
  rw [h.timely]
  generalize events = events at hcases
  induction events using List.reverseRecOn with
  | nil => rfl
  | append_singleton events e ih =>
    have ih := ih fun e' he' ↦ hcases e' (List.mem_append_left _ he')
    rw [List.flatMap_append, List.flatMap_singleton, List.reverse_append, List.reverse_singleton,
      List.singleton_append, List.findSome?_cons, ← ih]
    rcases hcases e (List.mem_append_right _ List.mem_cons_self) with ⟨d, hd⟩ | hnone
    · rw [hd.definitions, lastText_append_singleton, hd.text]
      by_cases hname : lower (d.block.head.field "NAME") = name
      · have heq : d.identifier = chosen :=
          Option.some.inj (hd.given.symm.trans (hname ▸ hgiven))
        rw [if_pos heq, if_pos hname]
      · have hne : d.identifier ≠ chosen := by
          rintro rfl
          refine h.sound.names.lower_ne hd.given hgiven ?_ rfl
          rintro ⟨⟩
          exact hname rfl
        rw [if_neg hne, if_neg hname]
    · rw [hnone.definitions, hnone.text, List.append_nil]

theorem exists_defines_of_subject (h : Told options events p) {e : Event} (he : e ∈ events)
    {name : String} (hs : .procedure name ∈ e.subjects) :
    ∃ d, Defines p e d ∧ lower (d.block.head.field "NAME") = name := by
  rcases h.defines_cases he with ⟨d, hd⟩ | hnone
  · exact ⟨d, hd, (hd.subject name).1 hs⟩
  · exact absurd hs (hnone.subject name)

/-- A definition that was registered is that of an emitted block. -/
theorem exists_defines (h : Told options events p) {d : Definition}
    (hd : d ∈ events.filterMap Event.registered?) : ∃ e ∈ events, Defines p e d := by
  rw [h.timely] at hd
  obtain ⟨e, he, hd⟩ := List.mem_flatMap.1 hd
  rcases h.defines_cases he with ⟨d', hd'⟩ | hnone
  · rw [hd'.definitions] at hd
    cases List.mem_singleton.1 hd
    exact ⟨e, he, hd'⟩
  · rw [hnone.definitions] at hd
    cases hd

theorem keyOf_procedure {e : Event} {d : Definition} (hd : Defines p e d) :
    p.keyOf (.procedure (lower (d.block.head.field "NAME"))) = Pass.procedureKey d.identifier := by
  rw [Pass.keyOf, hd.given]
  rfl

/-- What was registered last for an identifier was registered for it. -/
theorem exists_of_lastText {definitions : List Definition} {identifier text : String}
    (h : lastText definitions identifier = some text) :
    ∃ d ∈ definitions, d.identifier = identifier ∧ d.text = text := by
  obtain ⟨d, hd, rfl⟩ := Option.map_eq_some_iff.1 h
  exact ⟨d, List.mem_reverse.1 (List.mem_of_find?_eq_some hd),
    beq_iff_eq.1 (List.find?_some hd :), rfl⟩

/-! ## The table -/

/-- The name that a definition opens with, and what it is the name of. -/
theorem heading_of_mem (h : Told options events p) {entry : String × String}
    (hentry : entry ∈ p.definitions) : ∃ name, definedName? entry.2 = some name ∧
      ((entry.1, name) ∈ p.helpers ∨
        entry.1 = Pass.procedureKey name ∧ ∃ key, p.names.given.lookup key = some name) := by
  have hlookup := Table.lookup_of_mem h.recorded.nodup (show (entry.1, entry.2) ∈ _ from hentry)
  rcases h.recorded.known entry.1 (List.mem_map_of_mem hentry) with hkey | ⟨chosen, hkey⟩
  · obtain ⟨⟨key, lines⟩, hmem, heq⟩ := List.mem_map.1 hkey
    obtain rfl : key = entry.1 := heq
    rw [h.recorded.helperText _ hmem] at hlookup
    obtain ⟨name, hname, htext⟩ := Option.map_eq_some_iff.1 hlookup
    have hmem' := Table.mem_of_lookup hname
    refine ⟨name, ?_, .inl hmem'⟩
    rw [← htext]
    exact definedName?_helperText _ hmem (h.sound.legal _ hmem')
  · rw [hkey, h.recorded.procedureText] at hlookup
    obtain ⟨d, hd, rfl, htext⟩ := exists_of_lastText hlookup
    obtain ⟨e, -, hdefines⟩ := h.exists_defines hd
    exact ⟨d.identifier, htext ▸ hdefines.heading, .inr ⟨hkey, _, hdefines.given⟩⟩

/-- The name of a definition is no primitive. -/
theorem lower_ne_of_mem_taken (h : Told options events p) {name : String}
    (htaken : lower name ∈ p.names.taken) : ∀ word ∈ Logo.primitives, lower name ≠ lower word := by
  intro word hword heq
  refine h.sound.names.unreserved _ htaken ?_
  rw [h.reserved, heq]
  exact List.mem_map_of_mem hword

theorem headings (h : Told options events p) : ∀ entry ∈ p.definitions,
    ∃ name, definedName? entry.2 = some name ∧ ∀ word ∈ Logo.primitives, lower name ≠ lower word := by
  intro entry hentry
  obtain ⟨name, hname, howner⟩ := h.heading_of_mem hentry
  refine ⟨name, hname, h.lower_ne_of_mem_taken ?_⟩
  rcases howner with hhelper | ⟨-, key, hgiven⟩
  · exact h.sound.taken (entry.1, name) hhelper
  · exact h.sound.names.taken (key, name) (Table.mem_of_lookup hgiven)

theorem apart (h : Told options events p) : p.definitions.Pairwise fun entry entry' ↦
    ∀ name name', definedName? entry.2 = some name → definedName? entry'.2 = some name' →
      lower name ≠ lower name' := by
  refine (List.pairwise_map.1 h.recorded.nodup).imp_of_mem ?_
  intro entry entry' hentry hentry' hne name name' hname hname'
  obtain ⟨_, heq, howner⟩ := h.heading_of_mem hentry
  obtain ⟨_, heq', howner'⟩ := h.heading_of_mem hentry'
  obtain rfl := Option.some.inj (hname.symm.trans heq)
  obtain rfl := Option.some.inj (hname'.symm.trans heq')
  rcases howner with hhelper | ⟨hkey, key, hgiven⟩ <;>
    rcases howner' with hhelper' | ⟨hkey', key', hgiven'⟩
  · exact fun hlower ↦ hne
      (h.sound.apart (entry.1, name) hhelper (entry'.1, name') hhelper' hlower)
  · exact h.sound.foreign (entry.1, name) hhelper (key', name') (Table.mem_of_lookup hgiven')
  · exact (h.sound.foreign (entry'.1, name') hhelper' (key, name)
      (Table.mem_of_lookup hgiven)).symm
  · refine h.sound.names.lower_ne hgiven hgiven' ?_
    rintro rfl
    rw [hgiven] at hgiven'
    exact hne (by rw [hkey, hkey', Option.some.inj hgiven'])

theorem mem_keys_iff (h : Told options events p) (key : String) :
    key ∈ p.definitions.map (·.1) ↔ ∃ e ∈ events, ∃ s ∈ e.subjects, p.keyOf s = key := by
  constructor
  · intro hkey
    have hsome := Table.mem_keys_iff.1 hkey
    rcases h.recorded.known key hkey with hhelper | ⟨chosen, rfl⟩
    · obtain ⟨⟨key, lines⟩, hmem, rfl⟩ := List.mem_map.1 hhelper
      rw [h.recorded.helperText _ hmem, Option.isSome_map] at hsome
      obtain ⟨e, he, hs⟩ := h.mem_subjects_helper.2 hsome
      exact ⟨e, he, .helper key, hs, rfl⟩
    · rw [h.recorded.procedureText] at hsome
      obtain ⟨text, htext⟩ := Option.isSome_iff_exists.1 hsome
      obtain ⟨d, hd, rfl, -⟩ := exists_of_lastText htext
      obtain ⟨e, he, hdefines⟩ := h.exists_defines hd
      exact ⟨e, he, _, (hdefines.subject _).2 rfl, keyOf_procedure hdefines⟩
  · rintro ⟨e, he, s, hs, rfl⟩
    apply Table.mem_keys_iff.2
    cases s with
    | helper key =>
      obtain ⟨lines, hmem⟩ := h.exists_lines he hs
      rw [Pass.keyOf, h.recorded.helperText (key, lines) hmem, Option.isSome_map]
      exact h.mem_subjects_helper.1 ⟨e, he, hs⟩
    | procedure name =>
      obtain ⟨d, hd, rfl⟩ := h.exists_defines_of_subject he hs
      rw [keyOf_procedure hd, h.recorded.procedureText, h.lastText_eq hd.given]
      rw [List.findSome?_isSome_iff]
      exact ⟨e, List.mem_reverse.2 he, by rw [hd.text, if_pos rfl]; rfl⟩

theorem keyOf_injective (h : Told options events p) : ∀ e ∈ events, ∀ s ∈ e.subjects,
    ∀ e' ∈ events, ∀ s' ∈ e'.subjects, p.keyOf s = p.keyOf s' → s = s' := by
  intro e he s hs e' he' s' hs' hkey
  cases s with
  | helper key =>
    obtain ⟨lines, hmem⟩ := h.exists_lines he hs
    cases s' with
    | helper key' => exact congrArg Owner.helper hkey
    | procedure name' => exact absurd hkey (helper_ne_procedureKey hmem _)
  | procedure name =>
    obtain ⟨d, hd, rfl⟩ := h.exists_defines_of_subject he hs
    cases s' with
    | helper key' =>
      obtain ⟨lines, hmem⟩ := h.exists_lines he' hs'
      exact absurd hkey.symm (helper_ne_procedureKey hmem _)
    | procedure name' =>
      obtain ⟨d', hd', rfl⟩ := h.exists_defines_of_subject he' hs'
      rw [keyOf_procedure hd, keyOf_procedure hd'] at hkey
      by_contra hne
      refine h.sound.names.lower_ne hd.given hd'.given ?_ (by rw [procedureKey_injective hkey])
      rintro heq
      exact hne (congrArg Owner.procedure (Prod.mk.inj heq).2)

theorem last (h : Told options events p) : ∀ e ∈ events, ∀ name, .procedure name ∈ e.subjects →
    p.definitions.lookup (p.keyOf (.procedure name)) =
      events.reverse.findSome? (·.textOf? name) := by
  intro e he name hs
  obtain ⟨d, hd, rfl⟩ := h.exists_defines_of_subject he hs
  rw [keyOf_procedure hd, h.recorded.procedureText, h.lastText_eq hd.given]

theorem calls (h : Told options events p) : ∀ b log emission, .emitted b log emission ∈ events →
    b.head.isCall → ∀ e ∈ events, .procedure (lower b.head.callee) ∈ e.subjects →
      ∃ text, p.definitions.lookup (p.keyOf (.procedure (lower b.head.callee))) = some text ∧
        definedName? text = some (calledName emission.text) := by
  intro b log emission hmem hcall e he hs
  obtain ⟨emitter, hemitter, hyields, hlog⟩ := h.explained.emitted b log emission hmem
  obtain ⟨name, rest, htext, hanswered, hrest⟩ :=
    Emitter.yields_call (Emitter.isCall_of_head hcall hemitter) hyields
  have hgiven := h.recorded.given b _ name (hlog _ hanswered)
  obtain ⟨d, hd, hname⟩ := h.exists_defines_of_subject he hs
  have hidentifier : d.identifier = name := by
    refine Option.some.inj (hd.given.symm.trans ?_)
    rw [hname]
    exact hgiven
  have hkey := (h.mem_keys_iff _).2 ⟨e, he, _, hs, rfl⟩
  obtain ⟨text, hlookup⟩ := Option.isSome_iff_exists.1 (Table.mem_keys_iff.1 hkey)
  refine ⟨text, hlookup, ?_⟩
  rw [← hname, keyOf_procedure hd, h.recorded.procedureText] at hlookup
  obtain ⟨d', hd', heq, rfl⟩ := exists_of_lastText hlookup
  obtain ⟨e', -, hdefines⟩ := h.exists_defines hd'
  rw [hdefines.heading, heq, hidentifier, htext,
    calledName_append (h.isIdentifier_of_given hgiven) hrest]

end Told

/-- After a pass that goes well with the standard emitters, whatever the options, the program is
made of definitions that agree with what was emitted. -/
theorem Compiler.definitions_agree {options : Options} {w : Workspace} {text : String}
    (h : ({ options } : Compiler).program w = .ok text) :
    ∃ parts p, (({ options } : Compiler).topBlocks w).run w.start = .ok parts p ∧
      text = tidy (p.program ("\n".intercalate parts)) ∧
      DefinitionsAgree (({ options } : Compiler).traceOf w) p := by
  obtain ⟨parts, p, hrun, htext⟩ := of_program_ok h
  have htold := told hrun
  exact ⟨parts, p, hrun, htext, htold.recorded.nodup, htold.mem_keys_iff, htold.keyOf_injective,
    htold.last, htold.headings, htold.apart, htold.calls⟩

/-- A call of a procedure that is defined behind it, in another case and under the key of a helper,
and that helper. -/
def namesakes : Workspace :=
  let call := (Block.ofKind "procedures_callnoreturn" "a").withMutation
    { callee := some "ListsRepeat" }
  let definition := (Block.ofKind "procedures_defnoreturn" "b").withField "NAME"
    (.text "listsRepeat")
  { topBlocks := [call, definition, Block.ofKind "lists_repeat" "c"] }

theorem isSome_program_namesakes : (({} : Compiler).program namesakes).toOption.isSome := by
  have hordered : namesakes.ordered = namesakes.topBlocks := rfl
  rw [Compiler.program, Compiler.rawProgram, Compiler.topBlocks, hordered, namesakes]
  simp only [List.mapM_cons, List.mapM_nil, Compiler.topBlock]
  rw [Compiler.block_eq _ ((Block.ofKind "procedures_callnoreturn" "a").withMutation _),
    Compiler.block_eq _ ((Block.ofKind "procedures_defnoreturn" "b").withField _ _),
    Compiler.block_eq _ (Block.ofKind "lists_repeat" "c")]
  decide +kernel

theorem Compiler.definitions_agree_namesakes : ∃ text, ({} : Compiler).program namesakes = .ok text ∧
    ∃ parts p, (({} : Compiler).topBlocks namesakes).run namesakes.start = .ok parts p ∧
      text = tidy (p.program ("\n".intercalate parts)) ∧
      DefinitionsAgree (({} : Compiler).traceOf namesakes) p := by
  have hsome := isSome_program_namesakes
  cases hok : ({} : Compiler).program namesakes with
  | error e =>
    rw [hok] at hsome
    cases hsome
  | ok text => exact ⟨text, rfl, Compiler.definitions_agree hok⟩

end Turtle

import Mathlib.Data.List.Forall2
import Turtle.Proofs.Compile.Gist
import Turtle.Proofs.Workspace.Shape

/-!
# One workspace in two formats

A node of a JSON document and an element of an XML document mirror each other if they tell the same
of a block.  They are not read as the same block: a field that refers to a variable keeps another
part of the reference, and only XML tells the shape of an input that nothing is connected to.  But
the two blocks have the same gist, so the two workspaces are compiled to the same program.
-/

namespace Turtle

open Xml (Element)

/-! ## Reading lists -/

namespace LoadM

variable {α β : Type}

theorem bind_ok {m : LoadM α} {a : α} (h : m = .ok a) (f : α → LoadM β) : m >>= f = f a := by
  rw [h]
  rfl

theorem within_ok {step : LoadStep} {m : LoadM α} {a : α} (h : m = .ok a) :
    within step m = .ok a := by
  rw [h]
  rfl

/-- A list in which everything is read, each element with its place. -/
theorem mapM_zipIdx_ok {f : α → LoadM β} {as : List α} {bs : List β}
    (h : List.Forall₂ (fun a b ↦ f a = .ok b) as bs) (step : Nat → LoadStep) (i : Nat) :
    (as.zipIdx i).mapM (fun (a, i) ↦ within (step i) (f a)) = .ok bs := by
  induction h generalizing i with
  | nil => rfl
  | cons hb _ ih =>
    rw [List.zipIdx_cons, List.mapM_cons, bind_ok (within_ok hb), bind_ok (ih (i + 1))]
    rfl

/-- A list of which everything can be read. -/
theorem mapM_ok {f : α → LoadM β} {as : List α} (h : ∀ a ∈ as, ∃ b, f a = .ok b) :
    ∃ bs, as.mapM f = .ok bs ∧ List.Forall₂ (fun a b ↦ f a = .ok b) as bs := by
  induction as with
  | nil => exact ⟨[], rfl, .nil⟩
  | cons a as ih =>
    obtain ⟨b, hb⟩ := h a List.mem_cons_self
    obtain ⟨bs, hbs, hall⟩ := ih fun a' ha' ↦ h a' (List.mem_cons_of_mem a ha')
    refine ⟨b :: bs, ?_, .cons hb hall⟩
    rw [List.mapM_cons, bind_ok hb, bind_ok hbs]
    rfl

end LoadM

section Forall₂

variable {α β : Type} {R : α → β → Prop} {as : List α} {bs : List β}

theorem exists_of_forall₂_left (h : List.Forall₂ R as bs) {a : α} (ha : a ∈ as) :
    ∃ b ∈ bs, R a b := by
  induction h with
  | nil => cases ha
  | cons hab _ ih =>
    rcases List.mem_cons.1 ha with rfl | ha
    · exact ⟨_, List.mem_cons_self, hab⟩
    · obtain ⟨b, hb, hR⟩ := ih ha
      exact ⟨b, List.mem_cons_of_mem _ hb, hR⟩

theorem exists_of_forall₂_right (h : List.Forall₂ R as bs) {b : β} (hb : b ∈ bs) :
    ∃ a ∈ as, R a b := exists_of_forall₂_left h.flip hb

end Forall₂

/-- Two lists that are made from two lists one by one. -/
theorem forall₂_of_made {α α' β β' : Type} {P : α → α' → Prop} {R : α → β → Prop}
    {R' : α' → β' → Prop} {Q : β → β' → Prop}
    (h : ∀ a a' b b', P a a' → R a b → R' a' b' → Q b b') {as : List α} {as' : List α'}
    {bs : List β} {bs' : List β'} (hP : List.Forall₂ P as as') (hR : List.Forall₂ R as bs)
    (hR' : List.Forall₂ R' as' bs') : List.Forall₂ Q bs bs' := by
  induction hP generalizing bs bs' with
  | nil =>
    cases hR
    cases hR'
    exact .nil
  | cons hP _ ih =>
    cases hR with
    | cons hb hR =>
      cases hR' with
      | cons hb' hR' => exact .cons (h _ _ _ _ hP hb hb') (ih hR hR')

/-! ## Mirror images -/

namespace Block

/-- The children of a name. -/
def named (e : Element) (name : String) : List Element := e.children.filter (·.name == name)

/-- The inputs of the element of a block. -/
def inputElements (e : Element) : List Element := e.children.filter fun c ↦ (inputShape? c).isSome

/-- The elements of the blocks that the element of a block links to. -/
def links (e : Element) : List Element := e.children.filterMap linked?

/-- The mutation in the element of a block. -/
def mutationOf (e : Element) : Mutation := ((named e "mutation").map Mutation.ofXml).getLast?.getD {}

/-- A member of an object and an element tell the same of a field: its text, or the id of the
variable that it refers to. -/
inductive SameField : String × Json → Element → Prop
  | text {name content : String} {c : Element} (hname : (c.attribute? "name").getD "" = name)
    (hid : c.attribute? "id" = none) (htext : c.text = content) : SameField (name, .text content) c
  | variable {name id : String} {c : Element} {members : List (String × Json)}
    (hname : (c.attribute? "name").getD "" = name) (hid : c.attribute? "id" = some id)
    (hjson : Json.textOf? "id" (.object members) = some id) : SameField (name, .object members) c

/-- Extra state and a mutation tell the same. -/
inductive SameState : Option Json → Mutation → Prop
  | none : SameState none {}
  | null : SameState (some .null) {}
  | object {state : Json} {m : Mutation} (hstate : ∃ members, state = .object members)
    (itemCount : (state.member? "itemCount" |> Json.optional? Json.natural?) = some m.itemCount)
    (params : Mutation.params? (state.member? "params") = some m.params)
    (callee : (state.member? "name" |> Json.optional? Json.text?) = some m.callee)
    (hasReturnValue :
      (state.member? "hasReturnValue" |> Json.optional? Json.bool?) = some m.hasReturnValue) :
    SameState (some state) m

/-- A member of an object and an element tell the same of an input, except for what is connected to
it.  If something is, then the tag is the one for the shape of its kind. -/
structure SameInput (entry : String × Json) (c : Element) : Prop where
  name : nameOfXml c = entry.1
  connected : (connectedNode? entry.2).isSome = (connected? c).isSome
  shape : ∀ t, connected? c = some t →
    ∃ kind, t.attribute? "type" = some kind ∧ inputShape? c = Emitter.shape? kind

/-- A node and an element tell the same of a block by itself. -/
structure SameNode (j : Json) (e : Element) : Prop where
  kind : ∃ kind, j.textOf? "type" = some kind ∧ e.attribute? "type" = some kind
  id : idOfJson j = idOfXml e
  x : (j.member? "x").bind Json.binary64? = (e.attribute? "x").bind fun x ↦ Binary64.read? x.toList
  y : (j.member? "y").bind Json.binary64? = (e.attribute? "y").bind fun y ↦ Binary64.read? y.toList
  enabled : enabledOfJson j = (e.attribute? "disabled" != some "true" &&
    (e.attribute? "disabled-reasons").all (·.isEmpty))
  comment : (commentOfJson j).filter (· != "") =
    ((named e "comment").map Element.text).getLast?.filter (· != "")
  state : SameState (j.member? "extraState") (mutationOf e)
  fields : List.Forall₂ SameField (j.membersOf "fields") (named e "field")
  inputs : List.Forall₂ SameInput (j.membersOf "inputs") (inputElements e)
  next : (links e).length = (nextNode? j).toList.length

/-- A node and an element tell the same of a block and of everything connected to it. -/
inductive Mirrors : Json → Element → Prop
  | node {j : Json} {e : Element} (same : SameNode j e)
    (inputs : ∀ entry c, (entry, c) ∈ (j.membersOf "inputs").zip (inputElements e) →
      ∀ n t, connectedNode? entry.2 = some n → connected? c = some t → Mirrors n t)
    (next : ∀ n t, nextNode? j = some n → t ∈ links e → Mirrors n t) : Mirrors j e

/-! ## Reading an element -/

section Parts

variable {id : String} {c : Element} {p : Part}

/-- A child is read as an input, as a next block, or as what it is by itself. -/
theorem partOfXml_cases (h : partOfXml id c = .ok p) :
    (∃ shape i, inputShape? c = some shape ∧
      (∀ b, i.target = some b → ∃ t, connected? c = some t ∧ ofXml t = .ok b) ∧ p = .input i) ∨
    (∃ t b, inputShape? c = none ∧ linked? c = some t ∧ ofXml t = .ok b ∧ p = .next b) ∨
    (inputShape? c = none ∧ linked? c = none ∧ p = Part.ofXml c) := by
  unfold partOfXml at h
  split at h
  case h_1 shape hshape =>
    refine .inl ⟨shape, ?_⟩
    split at h
    case h_1 =>
      cases h
      refine ⟨_, hshape, ?_, rfl⟩
      rintro b ⟨⟩
    case h_2 t ht =>
      obtain ⟨b, hb, rfl⟩ := LoadM.of_map_within_ok h
      refine ⟨_, hshape, ?_, rfl⟩
      rintro b' ⟨rfl⟩
      exact ⟨t, ht, hb⟩
  case h_2 hshape =>
    split at h
    case h_1 hlinked => exact .inr (.inr ⟨hshape, hlinked, (Except.ok.inj h).symm⟩)
    case h_2 t hlinked =>
      obtain ⟨b, hb, rfl⟩ := LoadM.of_map_within_ok h
      exact .inr (.inl ⟨t, b, hshape, hlinked, hb, rfl⟩)

/-- Parts that are made from the children of a name, whichever children stand between them. -/
theorem filterMap_parts {γ : Type} {name : String} {part? : Part → Option γ} {read : Element → γ}
    (hinput : ∀ i, part? (.input i) = none) (hnext : ∀ b, part? (.next b) = none)
    (hshape : ∀ c : Element, c.name = name → inputShape? c = none ∧ linked? c = none)
    (hpart : ∀ c, part? (.ofXml c) = if c.name = name then some (read c) else none)
    {cs : List Element} {parts : List Part}
    (h : List.Forall₂ (fun c p ↦ partOfXml id c = .ok p) cs parts) :
    parts.filterMap part? = (cs.filter (·.name == name)).map read := by
  induction h with
  | nil => rfl
  | @cons c p cs parts hp _ ih =>
    have hpart : part? p = if c.name = name then some (read c) else none := by
      rcases partOfXml_cases hp with ⟨shape, i, hc, -, rfl⟩ | ⟨t, b, -, hc, -, rfl⟩ | ⟨-, -, rfl⟩
      · rw [hinput, if_neg]
        intro hname
        rw [(hshape c hname).1] at hc
        cases hc
      · rw [hnext, if_neg]
        intro hname
        rw [(hshape c hname).2] at hc
        cases hc
      · exact hpart c
    rw [List.filterMap_cons, hpart, List.filter_cons, ih]
    by_cases hname : c.name = name <;> simp [hname]

variable {cs : List Element} {parts : List Part}

theorem filterMap_field? (h : List.Forall₂ (fun c p ↦ partOfXml id c = .ok p) cs parts) :
    parts.filterMap Part.field? = (cs.filter (·.name == "field")).map FieldValue.ofXml := by
  refine filterMap_parts (fun _ ↦ rfl) (fun _ ↦ rfl) (fun c hc ↦ ?_) (fun c ↦ ?_) h
  · simp [inputShape?, linked?, hc]
  · unfold Part.ofXml
    split <;> simp_all [Part.field?]

theorem filterMap_mutation? (h : List.Forall₂ (fun c p ↦ partOfXml id c = .ok p) cs parts) :
    parts.filterMap Part.mutation? = (cs.filter (·.name == "mutation")).map Mutation.ofXml := by
  refine filterMap_parts (fun _ ↦ rfl) (fun _ ↦ rfl) (fun c hc ↦ ?_) (fun c ↦ ?_) h
  · simp [inputShape?, linked?, hc]
  · unfold Part.ofXml
    split <;> simp_all [Part.mutation?]

theorem filterMap_comment? (h : List.Forall₂ (fun c p ↦ partOfXml id c = .ok p) cs parts) :
    parts.filterMap Part.comment? = (cs.filter (·.name == "comment")).map Element.text := by
  refine filterMap_parts (fun _ ↦ rfl) (fun _ ↦ rfl) (fun c hc ↦ ?_) (fun c ↦ ?_) h
  · simp [inputShape?, linked?, hc]
  · unfold Part.ofXml
    split <;> simp_all [Part.comment?]

theorem not_input_ofXml (c : Element) : (Part.ofXml c).input? = none ∧ (Part.ofXml c).next? = none := by
  unfold Part.ofXml
  split <;> exact ⟨rfl, rfl⟩

/-- The inputs of a block are made from the elements of inputs. -/
theorem forall₂_input? (h : List.Forall₂ (fun c p ↦ partOfXml id c = .ok p) cs parts) :
    List.Forall₂ (fun c i ↦ partOfXml id c = .ok (.input i))
      (cs.filter fun c ↦ (inputShape? c).isSome) (parts.filterMap Part.input?) := by
  induction h with
  | nil => exact .nil
  | @cons c p cs parts hp _ ih =>
    rw [List.filterMap_cons, List.filter_cons]
    rcases partOfXml_cases hp with ⟨shape, i, hc, -, rfl⟩ | ⟨t, b, hc, -, -, rfl⟩ | ⟨hc, -, rfl⟩
    · simpa [hc, Part.input?] using ⟨hp, ih⟩
    · simpa [hc, Part.input?] using ih
    · simpa [hc, not_input_ofXml] using ih

/-- What follows a block is made from the elements of the blocks that it links to. -/
theorem forall₂_next? (h : List.Forall₂ (fun c p ↦ partOfXml id c = .ok p) cs parts) :
    List.Forall₂ (fun t b ↦ ofXml t = .ok b) (cs.filterMap linked?)
      (parts.filterMap Part.next?) := by
  induction h with
  | nil => exact .nil
  | @cons c p cs parts hp _ ih =>
    rw [List.filterMap_cons, List.filterMap_cons]
    rcases partOfXml_cases hp with ⟨shape, i, hc, -, rfl⟩ | ⟨t, b, -, hc, hb, rfl⟩ | ⟨-, hc, rfl⟩
    · have hlinked : linked? c = none := by
        unfold inputShape? at hc
        unfold linked?
        rw [if_neg]
        rintro hname
        simp [hname] at hc
      simpa [hlinked, Part.next?] using ih
    · simpa [hc, Part.next?] using ⟨hb, ih⟩
    · simpa [hc, not_input_ofXml] using ih

end Parts

section OfXml

variable {t : Element} {b : Block}

/-- What has been read when a block has. -/
theorem exists_of_ofXml_ok (h : ofXml t = .ok b) : ∃ kind parts,
    t.attribute? "type" = some kind ∧ t.children.mapM (partOfXml (idOfXml t)) = .ok parts ∧
      b = ofParts kind (idOfXml t) t parts := by
  rw [ofXml_eq] at h
  obtain ⟨kind, hkind, h⟩ := LoadM.of_bind_ok h
  obtain ⟨parts, hparts, h⟩ := LoadM.of_bind_ok h
  cases h
  exact ⟨kind, parts, LoadM.of_require_ok hkind, hparts, rfl⟩

/-- What is read from an element has the kind that the element tells. -/
theorem kind_of_ofXml {kind : String} (h : ofXml t = .ok b)
    (hkind : t.attribute? "type" = some kind) : b.head.kind = kind := by
  obtain ⟨kind', parts, hkind', -, rfl⟩ := exists_of_ofXml_ok h
  exact Option.some.inj (hkind'.symm.trans hkind)

end OfXml

/-! ## Reading mirror images -/

/-- A node and an element are read as blocks with the same gist. -/
def ReadAlike (j : Json) (e : Element) : Prop :=
  ∃ b b', ofJson j = .ok b ∧ ofXml e = .ok b' ∧ b.gist = b'.gist

variable {j : Json} {e : Element}

theorem kindOfJson_eq {kind : String} (h : j.textOf? "type" = some kind) :
    kindOfJson j = .ok kind := by
  cases j with
  | object members => rw [kindOfJson, h]; rfl
  | _ => simp [Json.textOf?, Json.member?] at h

theorem mutationOfJson_eq {id : String} {m : Mutation} (h : SameState (j.member? "extraState") m) :
    mutationOfJson id j = .ok m := by
  unfold mutationOfJson
  generalize j.member? "extraState" = state at h
  cases h with
  | none => rfl
  | null => rfl
  | object hstate itemCount params callee hasReturnValue =>
    obtain ⟨members, rfl⟩ := hstate
    have hobject : Mutation.ofObject? (.object members) = some m := by
      simp only [Mutation.ofObject?, itemCount, params, callee, hasReturnValue]
      rfl
    simp only [Mutation.ofJson, hobject]
    rfl

theorem gist_field_eq {entry : String × Json} {c : Element} (h : SameField entry c) :
    ((entry.1, FieldValue.text (FieldValue.ofJson entry.2).toText) : String × FieldValue) =
      ((FieldValue.ofXml c).1, .text (FieldValue.ofXml c).2.toText) := by
  cases h with
  | text hname hid htext =>
    simp [FieldValue.ofXml, FieldValue.ofJson, FieldValue.toText, hname, hid, htext]
  | «variable» hname hid hjson =>
    simp [FieldValue.ofXml, FieldValue.ofJson, FieldValue.toText, hname, hid, hjson]

/-- What the two documents tell of a block by itself has the same gist. -/
theorem gist_head_eq {kind : String} (h : SameNode j e) {parts : List Part}
    (hparts : List.Forall₂ (fun c p ↦ partOfXml (idOfXml e) c = .ok p) e.children parts) :
    (headOfJson kind (idOfJson j) j (mutationOf e)).gist =
      (headOfXml kind (idOfXml e) e parts).gist := by
  have hfields : ((j.membersOf "fields").map fun f ↦ (f.1, FieldValue.ofJson f.2)).map
      (fun f ↦ (f.1, FieldValue.text f.2.toText)) =
        (parts.filterMap Part.field?).map fun f ↦ (f.1, .text f.2.toText) := by
    rw [filterMap_field? hparts, List.map_map, List.map_map]
    have hsame := h.fields
    unfold named at hsame
    generalize j.membersOf "fields" = members, e.children.filter (·.name == "field") = fields at hsame
    induction hsame with
    | nil => rfl
    | cons hfield _ ih => exact congrArg₂ List.cons (gist_field_eq hfield) ih
  simp only [Head.gist, Head.comment?, headOfJson, headOfXml, Head.mk.injEq]
  refine ⟨trivial, h.id, h.enabled, ?_, h.x, h.y, hfields, ?_⟩
  · rw [filterMap_comment? hparts]
    exact h.comment
  · rw [filterMap_mutation? hparts]
    rfl

/-- An input is read from both documents if what is connected to it is. -/
theorem inputGist_eq {id id' : String} {entry : String × Json} {c : Element}
    (h : SameInput entry c) (hc : (inputShape? c).isSome)
    (hchild : ∀ n t, connectedNode? entry.2 = some n → connected? c = some t → ReadAlike n t) :
    ∃ i i', inputOfJson id entry = .ok i ∧ partOfXml id' c = .ok (.input i') ∧
      inputGist i = inputGist i' := by
  obtain ⟨shape, hshape⟩ := Option.isSome_iff_exists.1 hc
  cases ht : connected? c with
  | none =>
    have hn : connectedNode? entry.2 = none := by
      rw [← Option.not_isSome_iff_eq_none, h.connected, ht]
      exact Bool.false_ne_true
    refine ⟨_, _, by rw [inputOfJson, hn]; rfl, by rw [partOfXml, hshape]; simp only [ht]; rfl, ?_⟩
    simp [inputGist, emptyInput, h.name]
  | some t =>
    obtain ⟨n, hn⟩ : ∃ n, connectedNode? entry.2 = some n := by
      rw [← Option.isSome_iff_exists, h.connected, ht]
      rfl
    obtain ⟨b, b', hb, hb', hgist⟩ := hchild n t hn ht
    obtain ⟨kind, hkind, hshape'⟩ := h.shape t ht
    have hkinds : b.head.kind = kind := by
      have hheads := congrArg (fun b ↦ b.head.kind) hgist
      simp only [gist_head, Head.gist_kind] at hheads
      rw [hheads, kind_of_ofXml hb' hkind]
    refine ⟨filledInput entry.1 b, { name := nameOfXml c, shape, target := some b' }, ?_, ?_, ?_⟩
    · rw [inputOfJson, hn]
      simp only [LoadM.within_ok hb]
      rfl
    · rw [partOfXml, hshape]
      simp only [ht, LoadM.within_ok hb']
      rfl
    · have hfor : shapeFor b = shape := by rw [shapeFor, hkinds, ← hshape', hshape]; rfl
      simp [inputGist, filledInput, h.name, hgist, hfor]

/-- An input is read from both documents, with the same gist. -/
def InputReadAlike (j : Json) (e : Element) (entry : String × Json) (c : Element) : Prop :=
  ∃ i i', inputOfJson (idOfJson j) entry = .ok i ∧ partOfXml (idOfXml e) c = .ok (.input i') ∧
    inputGist i = inputGist i'

theorem nextNode?_of_mem_links (h : SameNode j e) {t : Element} (ht : t ∈ links e) :
    ∃ n, nextNode? j = some n := by
  cases hn : nextNode? j with
  | some n => exact ⟨n, rfl⟩
  | none =>
    have hlength := h.next
    rw [hn] at hlength
    exact absurd ht (List.eq_nil_of_length_eq_zero hlength ▸ List.not_mem_nil)

/-- Every child of an element can be read if the inputs and the linked blocks can. -/
theorem exists_part (hinput : ∀ c ∈ inputElements e, ∃ p, partOfXml (idOfXml e) c = .ok p)
    (hlink : ∀ t ∈ links e, ∃ b, ofXml t = .ok b) :
    ∀ c ∈ e.children, ∃ p, partOfXml (idOfXml e) c = .ok p := by
  intro c hc
  cases hshape : inputShape? c with
  | some shape => exact hinput c (List.mem_filter.2 ⟨hc, by rw [hshape]; rfl⟩)
  | none =>
    cases hlinked : linked? c with
    | none => exact ⟨_, by rw [partOfXml, hshape]; simp only [hlinked]; rfl⟩
    | some t =>
      obtain ⟨b, hb⟩ := hlink t (List.mem_filterMap.2 ⟨c, hc, hlinked⟩)
      refine ⟨.next b, ?_⟩
      rw [partOfXml, hshape]
      simp only [hlinked, LoadM.within_ok hb]
      rfl

section Assembling

variable {parts : List Part}
  (hparts : List.Forall₂ (fun c p ↦ partOfXml (idOfXml e) c = .ok p) e.children parts)

include hparts

theorem map_inputGist_eq {inputs : List (Input Block)}
    (hinput : List.Forall₂ (InputReadAlike j e) (j.membersOf "inputs") (inputElements e))
    (hinputs : List.Forall₂ (fun entry i ↦ inputOfJson (idOfJson j) entry = .ok i)
      (j.membersOf "inputs") inputs) :
    inputs.map inputGist = (parts.filterMap Part.input?).map inputGist := by
  have hall : List.Forall₂ (fun i i' ↦ inputGist i = inputGist i') inputs
      (parts.filterMap Part.input?) := by
    refine forall₂_of_made (fun entry c i i' h hi hi' ↦ ?_) hinput hinputs (forall₂_input? hparts)
    obtain ⟨_, _, hj, hx, heq⟩ := h
    rw [Except.ok.inj (hi.symm.trans hj), Part.input.inj (Except.ok.inj (hi'.symm.trans hx)), heq]
  generalize parts.filterMap Part.input? = inputs' at hall
  clear hinputs
  induction hall with
  | nil => rfl
  | cons h _ ih => rw [List.map_cons, List.map_cons, h, ih]

theorem exists_next (h : SameNode j e)
    (hnext : ∀ n t, nextNode? j = some n → t ∈ links e → ReadAlike n t) :
    ∃ next, nextOfJson (idOfJson j) j = .ok next ∧
      next.map gist = (parts.filterMap Part.next?).getLast?.map gist := by
  have hlinks : List.Forall₂ (fun t b ↦ ofXml t = .ok b) (links e) (parts.filterMap Part.next?) :=
    forall₂_next? hparts
  have hlength := h.next
  cases hn : nextNode? j with
  | none =>
    rw [hn] at hlength
    rw [List.eq_nil_of_length_eq_zero hlength, List.forall₂_nil_left_iff] at hlinks
    exact ⟨none, by rw [nextOfJson, hn]; rfl, by rw [hlinks]; rfl⟩
  | some n =>
    rw [hn] at hlength
    obtain ⟨t, ht⟩ := List.length_eq_one_iff.1 hlength
    obtain ⟨b, b', hb, hb', hgist⟩ := hnext n t hn (ht ▸ List.mem_singleton_self t)
    rw [ht] at hlinks
    obtain ⟨b'', bs, hb'', hnil, heq⟩ := List.forall₂_cons_left_iff.1 hlinks
    rw [List.forall₂_nil_left_iff.1 hnil] at heq
    refine ⟨some b, ?_, ?_⟩
    · rw [nextOfJson, hn]
      simp only [LoadM.within_ok hb]
      rfl
    · rw [heq, ← Except.ok.inj (hb'.symm.trans hb'')]
      simp [hgist]

end Assembling

/-- Mirror images are read, and as blocks with the same gist. -/
theorem readAlike_of_mirrors (h : Mirrors j e) : ReadAlike j e := by
  induction h with
  | @node j e same _ _ hinputs hnext =>
    obtain ⟨kind, hkindJson, hkindXml⟩ := same.kind
    have hinput : List.Forall₂ (InputReadAlike j e) (j.membersOf "inputs") (inputElements e) := by
      refine List.forall₂_iff_zip.2 ⟨same.inputs.length_eq, fun {entry c} hmem ↦ ?_⟩
      have hc := List.of_mem_filter (List.of_mem_zip hmem).2
      exact inputGist_eq ((List.forall₂_iff_zip.1 same.inputs).2 hmem) hc (hinputs entry c hmem)
    have hlink (t : Element) (ht : t ∈ links e) : ∃ b, ofXml t = .ok b := by
      obtain ⟨n, hn⟩ := nextNode?_of_mem_links same ht
      obtain ⟨_, b, -, hb, -⟩ := hnext n t hn ht
      exact ⟨b, hb⟩
    obtain ⟨parts, hparts, hread⟩ := LoadM.mapM_ok (exists_part (fun c hc ↦ by
      obtain ⟨_, -, _, i, -, hi, -⟩ := exists_of_forall₂_right hinput hc
      exact ⟨_, hi⟩) hlink)
    obtain ⟨inputs, hinputsJson, hreadJson⟩ := LoadM.mapM_ok (f := inputOfJson (idOfJson j))
      fun entry hentry ↦ by
        obtain ⟨_, -, i, _, hi, -⟩ := exists_of_forall₂_left hinput hentry
        exact ⟨i, hi⟩
    obtain ⟨next, hnextJson, hgistNext⟩ := exists_next hread same hnext
    refine ⟨{ head := headOfJson kind (idOfJson j) j (mutationOf e), inputs, next },
      ofParts kind (idOfXml e) e parts, ?_, ?_, ?_⟩
    · rw [ofJson_eq, LoadM.bind_ok (kindOfJson_eq hkindJson), LoadM.bind_ok hinputsJson,
        LoadM.bind_ok hnextJson, LoadM.bind_ok (mutationOfJson_eq same.state)]
      rfl
    · rw [ofXml_eq, hkindXml, LoadM.bind_ok (a := kind) (by rfl), LoadM.bind_ok hparts]
      rfl
    · rw [gist_eq, gist_eq, ofParts]
      simp only [gist_head_eq same hread, map_inputGist_eq hread hinput hreadJson, hgistNext]

end Block

/-! ## Documents -/

namespace Workspace

/-- Two documents tell the same variables, and their top blocks mirror each other. -/
structure Mirrors (j : Json) (e : Element) : Prop where
  object : ∃ members, j = .object members
  vars : variablesOfJson (j.member? "variables") = .ok (variablesOfXml e)
  topBlocks : ∃ nodes, topNodes ((j.member? "blocks").bind (·.member? "blocks")) = .ok nodes ∧
    List.Forall₂ Block.Mirrors nodes (e.children.filter (·.name == "block"))

theorem exists_blocks {nodes : List Json} {es : List Element}
    (h : List.Forall₂ Block.ReadAlike nodes es) :
    ∃ bs bs', List.Forall₂ (fun j b ↦ Block.ofJson j = .ok b) nodes bs ∧
      List.Forall₂ (fun e b ↦ Block.ofXml e = .ok b) es bs' ∧
      bs.map Block.gist = bs'.map Block.gist := by
  induction h with
  | nil => exact ⟨[], [], .nil, .nil, rfl⟩
  | cons hread _ ih =>
    obtain ⟨b, b', hb, hb', hgist⟩ := hread
    obtain ⟨bs, bs', hbs, hbs', hgists⟩ := ih
    exact ⟨b :: bs, b' :: bs', .cons hb hbs, .cons hb' hbs', by
      rw [List.map_cons, List.map_cons, hgist, hgists]⟩

/-- Documents that mirror each other are read as workspaces with the same gist. -/
theorem exists_gist_eq {j : Json} {e : Element} (h : Mirrors j e) :
    ∃ w w', ofJson j = .ok w ∧ ofXml e = .ok w' ∧ w.gist = w'.gist := by
  obtain ⟨members, rfl⟩ := h.object
  obtain ⟨nodes, hnodes, hmirrors⟩ := h.topBlocks
  obtain ⟨bs, bs', hbs, hbs', hgist⟩ :=
    exists_blocks (hmirrors.imp fun _ _ ↦ Block.readAlike_of_mirrors)
  refine ⟨{ vars := variablesOfXml e, topBlocks := bs },
    { vars := variablesOfXml e, topBlocks := bs' }, ?_, ?_, ?_⟩
  · rw [ofJson, LoadM.bind_ok h.vars, LoadM.bind_ok hnodes,
      LoadM.bind_ok (LoadM.mapM_zipIdx_ok hbs .topBlock 0)]
    rfl
  · rw [ofXml, LoadM.bind_ok (LoadM.mapM_zipIdx_ok hbs' .topBlock 0)]
    rfl
  · rw [gist, gist, hgist]

/-- Documents that mirror each other are both read, and under all options the two workspaces are
compiled to the same program or refused for the same reason. -/
theorem program_eq_of_mirrors {j : Json} {e : Element} (h : Mirrors j e) :
    ∃ w w', ofJson j = .ok w ∧ ofXml e = .ok w' ∧
      ∀ o, ({ options := o } : Compiler).program w = ({ options := o } : Compiler).program w' := by
  obtain ⟨w, w', hw, hw', hgist⟩ := exists_gist_eq h
  exact ⟨w, w', hw, hw', fun o ↦ Compiler.program_eq_of_gist_eq o hgist⟩

/-! ### A program in both formats

A variable is set, and then a loop without a body is run.  The number is a shadow in one document
and a block in the other. -/

/-- The program as JSON. -/
def sizeJson : Json := .object [
  ("variables", .array [.object [("id", .text "v"), ("name", .text "size")]]),
  ("blocks", .object [("blocks", .array [.object [
    ("type", .text "variables_set"), ("id", .text "a"),
    ("fields", .object [("VAR", .object [("id", .text "v")])]),
    ("inputs", .object [("VALUE", .object [("shadow", .object [
      ("type", .text "math_number"), ("fields", .object [("NUM", .text "3")])])])]),
    ("next", .object [("block", .object [
      ("type", .text "controls_repeat"), ("id", .text "c"),
      ("fields", .object [("TIMES", .text "2")]),
      ("inputs", .object [("DO", .object [])])])])]])])]

/-- The program as XML. -/
def sizeXml : Element := {
  name := "xml"
  children := [
    { name := "variables", children := [
      { name := "variable", attributes := [("id", "v")], text := "size" }] },
    { name := "block", attributes := [("type", "variables_set"), ("id", "a")], children := [
      { name := "field", attributes := [("name", "VAR"), ("id", "v")], text := "size" },
      { name := "value", attributes := [("name", "VALUE")], children := [
        { name := "block", attributes := [("type", "math_number")], children := [
          { name := "field", attributes := [("name", "NUM")], text := "3" }] }] },
      { name := "next", children := [
        { name := "block", attributes := [("type", "controls_repeat"), ("id", "c")], children := [
          { name := "field", attributes := [("name", "TIMES")], text := "2" },
          { name := "statement", attributes := [("name", "DO")] }] }] }] }] }

theorem mirrors_size : Mirrors sizeJson sizeXml := by
  refine ⟨⟨_, rfl⟩, rfl, _, rfl, .cons (.node ?_ ?_ ?_) .nil⟩
  · exact ⟨⟨_, rfl, rfl⟩, rfl, rfl, rfl, rfl, rfl, .none,
      .cons (.variable rfl rfl rfl) .nil,
      .cons ⟨rfl, rfl, fun t ht ↦ by cases ht; exact ⟨_, rfl, rfl⟩⟩ .nil, rfl⟩
  · rintro entry c hmem n t hn ht
    cases List.mem_singleton.1 hmem
    cases hn
    cases ht
    refine .node ⟨⟨_, rfl, rfl⟩, rfl, rfl, rfl, rfl, rfl, .none,
      .cons (.text rfl rfl rfl) .nil, .nil, rfl⟩ (fun _ _ hmem ↦ nomatch hmem) fun n t hn ↦ ?_
    cases hn
  · rintro n t hn ht
    cases hn
    cases List.mem_singleton.1 ht
    refine .node ⟨⟨_, rfl, rfl⟩, rfl, rfl, rfl, rfl, rfl, .none,
      .cons (.text rfl rfl rfl) .nil, .cons ⟨rfl, rfl, fun t ht ↦ by cases ht⟩ .nil, rfl⟩
      (fun entry c hmem n t hn ↦ ?_) fun n t hn ↦ by cases hn
    cases List.mem_singleton.1 hmem
    cases hn

theorem program_eq_of_mirrors_size :
    ∃ w w', ofJson sizeJson = .ok w ∧ ofXml sizeXml = .ok w' ∧
      ∀ o, ({ options := o } : Compiler).program w = ({ options := o } : Compiler).program w' :=
  program_eq_of_mirrors mirrors_size

end Workspace

end Turtle

import Turtle.Workspace.OfJson

/-!
# Which JSON documents are read

A document is read if and only if it is an object with a readable list of variables and a list of
top blocks, and every block that is reached from these is an object with a kind and a readable extra
state.  The blocks are visited in a fixed order, each for its kind first and for its extra state
last, and the error of a document that is refused is that of the first visit that fails: it shows
the way from the document to the node.
-/

namespace Turtle

/-! ## Readable parts -/

namespace Json

/-- Nothing, null, or a value with a property. -/
def Optional (P : Json → Prop) (o : Option Json) : Prop := ∀ j, o = some j → j = .null ∨ P j

def IsText (j : Json) : Prop := ∃ s, j = .text s

def IsBool (j : Json) : Prop := ∃ b, j = .bool b

def IsNatural (j : Json) : Prop := ∃ n : Nat, j = .number (.integer n)

variable {P : Json → Prop} {j : Json}

theorem isSome_optional? {α : Type} {decode : Json → Option α}
    (h : ∀ j, (decode j).isSome ↔ P j) (o : Option Json) :
    (optional? decode o).isSome ↔ Optional P o := by
  unfold optional? Optional
  split
  case h_1 => simp
  case h_2 => simp
  case h_3 k hnull =>
    rw [Option.isSome_map, h]
    constructor
    · rintro hk _ ⟨⟩
      exact .inr hk
    · intro hk
      exact (hk k rfl).resolve_left hnull

theorem isSome_text? : j.text?.isSome ↔ IsText j := by
  cases j <;> simp [text?, IsText]

theorem isSome_bool? : j.bool?.isSome ↔ IsBool j := by
  cases j <;> simp [bool?, IsBool]

theorem isSome_natural? : j.natural?.isSome ↔ IsNatural j := by
  unfold natural?
  split
  case h_1 n =>
    split
    case isTrue h => exact iff_of_true rfl ⟨n.toNat, by rw [Int.toNat_of_nonneg h]⟩
    case isFalse h =>
      refine iff_of_false (by simp) ?_
      rintro ⟨m, hm⟩
      cases hm
      exact h (Int.natCast_nonneg m)
  case h_2 h =>
    refine iff_of_false (by simp) ?_
    rintro ⟨n, rfl⟩
    exact h n rfl

end Json

/-- A parameter is a text, or an object with a text for its name. -/
inductive Mutation.IsParam : Json → Prop
  | text (s : String) : IsParam (.text s)
  | named {members : List (String × Json)} {s : String} (h : members.lookup "name" = some (.text s)) :
    IsParam (.object members)

/-- The members of an extra state may be missing, and but for the parameters they may be null. -/
structure Mutation.IsReadable (j : Json) : Prop where
  itemCount : Json.Optional Json.IsNatural (j.member? "itemCount")
  params : ∀ v, j.member? "params" = some v → ∃ items, v = .array items ∧ ∀ k ∈ items, IsParam k
  callee : Json.Optional Json.IsText (j.member? "name")
  hasReturnValue : Json.Optional Json.IsBool (j.member? "hasReturnValue")

/-- A variable is an object with a name and perhaps an id, or a list of the two. -/
inductive Variable.IsReadable : Json → Prop
  | object {members : List (String × Json)} {name : String}
    (hname : members.lookup "name" = some (.text name))
    (hid : Json.Optional Json.IsText (members.lookup "id")) : IsReadable (.object members)
  | single (name : String) : IsReadable (.array [.text name])
  | pair (name : String) {id : Json} (hid : Json.Optional Json.IsText (some id)) :
    IsReadable (.array [.text name, id])

theorem Json.textOf?_eq_some_iff {key s : String} {members : List (String × Json)} :
    Json.textOf? key (.object members) = some s ↔ members.lookup key = some (.text s) := by
  rw [textOf?, Option.bind_eq_some_iff]
  constructor
  · rintro ⟨k, hk, hs⟩
    cases k <;> cases hs
    exact hk
  · exact fun h ↦ ⟨.text s, h, rfl⟩

/-- A list is decoded if and only if all elements are. -/
theorem isSome_mapM {α β : Type} {f : α → Option β} {as : List α} :
    (as.mapM f).isSome ↔ ∀ a ∈ as, (f a).isSome := by
  induction as with
  | nil => simp
  | cons a as ih =>
    rw [List.mapM_cons, List.forall_mem_cons, ← ih]
    cases f a <;> cases as.mapM f <;> simp

namespace Mutation

variable {j : Json}

theorem isSome_param? : (param? j).isSome ↔ IsParam j := by
  rw [Option.isSome_iff_exists]
  constructor
  · rintro ⟨s, hs⟩
    cases j with
    | text => exact .text _
    | object members => exact .named (Json.textOf?_eq_some_iff.1 hs)
    | _ => cases hs
  · rintro (s | h)
    · exact ⟨s, rfl⟩
    · exact ⟨_, Json.textOf?_eq_some_iff.2 h⟩

theorem isSome_params? {o : Option Json} : (params? o).isSome ↔
    ∀ v, o = some v → ∃ items, v = .array items ∧ ∀ k ∈ items, IsParam k := by
  unfold params?
  split
  case h_1 => simp
  case h_2 items => simp [isSome_mapM, isSome_param?]
  case h_3 v harray =>
    refine iff_of_false (by simp) fun h ↦ ?_
    obtain ⟨items, rfl, -⟩ := h v rfl
    exact harray items rfl

theorem isSome_ofObject? : (ofObject? j).isSome ↔ IsReadable j := by
  have hparts : (ofObject? j).isSome ↔
      (Json.optional? Json.natural? (j.member? "itemCount")).isSome ∧
      (params? (j.member? "params")).isSome ∧
      (Json.optional? Json.text? (j.member? "name")).isSome ∧
      (Json.optional? Json.bool? (j.member? "hasReturnValue")).isSome := by
    unfold ofObject?
    cases Json.optional? Json.natural? (j.member? "itemCount") <;>
      cases params? (j.member? "params") <;>
        cases Json.optional? Json.text? (j.member? "name") <;>
          cases Json.optional? Json.bool? (j.member? "hasReturnValue") <;> simp
  rw [hparts, Json.isSome_optional? fun _ ↦ Json.isSome_natural?, isSome_params?,
    Json.isSome_optional? fun _ ↦ Json.isSome_text?, Json.isSome_optional? fun _ ↦ Json.isSome_bool?]
  exact ⟨fun ⟨hcount, hparams, hcallee, hvalue⟩ ↦ ⟨hcount, hparams, hcallee, hvalue⟩,
    fun h ↦ ⟨h.itemCount, h.params, h.callee, h.hasReturnValue⟩⟩

end Mutation

theorem Variable.isSome_ofJson? {j : Json} : (ofJson? j).isSome ↔ IsReadable j := by
  have hid (o : Option Json) := Json.isSome_optional? (fun j ↦ @Json.isSome_text? j) o
  constructor
  · intro h
    unfold ofJson? at h
    split at h
    case h_1 members =>
      obtain ⟨v, hv⟩ := Option.isSome_iff_exists.1 h
      obtain ⟨name, hname, hv⟩ := Option.bind_eq_some_iff.1 hv
      obtain ⟨id, hread, -⟩ := Option.bind_eq_some_iff.1 hv
      exact .object (Json.textOf?_eq_some_iff.1 hname)
        ((hid _).1 (Option.isSome_iff_exists.2 ⟨id, hread⟩))
    case h_2 name => exact .single name
    case h_3 name id =>
      obtain ⟨v, hv⟩ := Option.isSome_iff_exists.1 h
      obtain ⟨id', hread, -⟩ := Option.bind_eq_some_iff.1 hv
      exact .pair name ((hid _).1 (Option.isSome_iff_exists.2 ⟨id', hread⟩))
    case h_4 => cases h
  · rintro (⟨hname, hread⟩ | name | ⟨name, hread⟩)
    · obtain ⟨id, hid⟩ := Option.isSome_iff_exists.1 ((hid _).2 hread)
      rw [ofJson?, Json.textOf?_eq_some_iff.2 hname, hid]
      rfl
    · rfl
    · obtain ⟨id', hid⟩ := Option.isSome_iff_exists.1 ((hid _).2 hread)
      change (Json.optional? Json.text? (some _) >>= _).isSome
      rw [hid]
      rfl

/-! ## Errors -/

/-- An error in a node that is reached on a path. -/
def LoadError.behind (path : List LoadStep) (e : LoadError) : LoadError :=
  { e with path := path ++ e.path }

theorem LoadError.messages_behind (path : List LoadStep) (e : LoadError) :
    (e.behind path).messages = path.map LoadStep.message ++ e.messages := by
  simp [messages, behind]

namespace LoadM

variable {α β : Type}

/-- The error of a reading that fails. -/
def error? : LoadM α → Option LoadError
  | .ok _ => none
  | .error e => some e

theorem error?_eq_none_iff {m : LoadM α} : m.error? = none ↔ ∃ a, m = .ok a := by
  cases m <;> simp [error?]

theorem error?_eq_some_iff {m : LoadM α} {e : LoadError} : m.error? = some e ↔ m = .error e := by
  cases m <;> simp [error?]

theorem error?_pure (a : α) : (pure a : LoadM α).error? = none := rfl

theorem error?_map (f : α → β) (m : LoadM α) : (f <$> m).error? = m.error? := by
  cases m <;> rfl

theorem error?_within (step : LoadStep) (m : LoadM α) :
    (within step m).error? = m.error?.map (.behind [step]) := by
  cases m <;> rfl

theorem error?_require (fault : LoadFault) (o : Option α) :
    (require fault o).error? = if o.isSome then none else some { fault } := by
  cases o <;> rfl

/-- If what comes second fails in the same way whatever comes first, the first error counts. -/
theorem error?_bind {m : LoadM α} {f : α → LoadM β} {second : Option LoadError}
    (h : ∀ a, (f a).error? = second) : (m >>= f).error? = m.error?.or second := by
  cases m with
  | error e => rfl
  | ok a => exact h a

/-- Of a list, the first error counts. -/
theorem error?_mapM {f : α → LoadM β} {g : α → Option LoadError} {as : List α}
    (h : ∀ a ∈ as, (f a).error? = g a) : (as.mapM f).error? = as.findSome? g := by
  induction as with
  | nil => rfl
  | cons a as ih =>
    have hrest := ih fun b hb ↦ h b (List.mem_cons_of_mem a hb)
    rw [List.mapM_cons, error?_bind fun b ↦ (error?_bind fun bs ↦ error?_pure (b :: bs)),
      hrest, Option.or_none, h a List.mem_cons_self, List.findSome?_cons]
    cases g a <;> rfl

end LoadM

/-! ## Visits -/

/-- What a node of a block is looked at for. -/
inductive Aspect where
  | kind
  | state
deriving DecidableEq, Repr

/-- A look at a node of a block that is reached on a path. -/
structure Visit where
  path : List LoadStep
  node : Json
  aspect : Aspect

/-- The same look, from further away. -/
def Visit.behind (step : LoadStep) (v : Visit) : Visit := { v with path := step :: v.path }

namespace Block

/-- The kind of a block is a text in an object. -/
def HasKind (node : Json) : Prop :=
  ∃ members kind, node = .object members ∧ members.lookup "type" = some (.text kind)

/-- The extra state of a block may be missing or null. -/
inductive ReadableState : Json → Prop
  | null : ReadableState .null
  | object {members : List (String × Json)} (h : Mutation.IsReadable (.object members)) :
    ReadableState (.object members)
  | mutation {s : String} {m : Mutation} (h : Mutation.read s = .ok m) : ReadableState (.text s)

def HasState (node : Json) : Prop :=
  ∀ state, node.member? "extraState" = some state → ReadableState state

/-- A node that is reached from a node of a block, and the path to it. -/
inductive Reaches : Json → List LoadStep → Json → Prop
  | self (j : Json) : Reaches j [] j
  | input {j input child node : Json} {name : String} {path : List LoadStep}
    (hinput : (name, input) ∈ j.membersOf "inputs") (hchild : connectedNode? input = some child)
    (h : Reaches child path node) : Reaches j (.input name (idOfJson j) :: path) node
  | next {j child node : Json} {path : List LoadStep} (hchild : nextNode? j = some child)
    (h : Reaches child path node) : Reaches j (.next (idOfJson j) :: path) node

/-- All visits to a node and what is connected to it, in order. -/
def visits (j : Json) : List Visit :=
  let inputs := (j.membersOf "inputs").attach.flatMap fun ⟨(name, input), _hi⟩ ↦
    match _h : connectedNode? input with
    | none => []
    | some node => (visits node).map (.behind (.input name (idOfJson j)))
  let next := match _h : nextNode? j with
    | none => []
    | some node => (visits node).map (.behind (.next (idOfJson j)))
  ⟨[], j, .kind⟩ :: inputs ++ next ++ [⟨[], j, .state⟩]
termination_by sizeOf j
decreasing_by
  · have := sizeOf_of_connectedNode? _h
    have := Json.sizeOf_of_mem_membersOf _hi
    omega
  · exact sizeOf_of_nextNode? _h

/-- The visits to what is connected to an input. -/
def inputVisits (id : String) (entry : String × Json) : List Visit :=
  match connectedNode? entry.2 with
  | none => []
  | some node => (visits node).map (.behind (.input entry.1 id))

/-- The visits to what follows a block. -/
def nextVisits (id : String) (j : Json) : List Visit :=
  match nextNode? j with
  | none => []
  | some node => (visits node).map (.behind (.next id))

theorem visits_eq (j : Json) : visits j =
    ⟨[], j, .kind⟩ :: (j.membersOf "inputs").flatMap (inputVisits (idOfJson j)) ++
      nextVisits (idOfJson j) j ++ [⟨[], j, .state⟩] := by
  have hnext : (match _h : nextNode? j with
      | none => []
      | some node => (visits node).map (.behind (.next (idOfJson j)))) =
        nextVisits (idOfJson j) j := by
    unfold nextVisits
    cases nextNode? j <;> rfl
  rw [visits, hnext]
  congr 3
  rw [List.flatMap_subtype (g := inputVisits (idOfJson j)), List.unattach_attach]
  intro entry _
  simp only [inputVisits]
  cases connectedNode? entry.2 <;> rfl

end Block

open Block

/-- What is said of a node that fails a look. -/
inductive Complaint (node : Json) : Aspect → LoadError → Prop
  | notObject (h : ∀ members, node ≠ .object members) :
    Complaint node .kind { fault := .blockNotObject }
  | missingType {members : List (String × Json)} (h : node = .object members)
    (htype : ∀ kind, members.lookup "type" ≠ some (.text kind)) :
    Complaint node .kind { fault := .missingType }
  | badState {members : List (String × Json)}
    (h : node.member? "extraState" = some (.object members))
    (hstate : ¬ Mutation.IsReadable (.object members)) :
    Complaint node .state { fault := .badState (idOfJson node) }
  | badMutation {s : String} (h : node.member? "extraState" = some (.text s))
    (hread : ∀ m, Mutation.read s ≠ .ok m) :
    Complaint node .state { path := [.mutation (idOfJson node)], fault := .malformedMutation }
  | unexpected {state : Json} (h : node.member? "extraState" = some state)
    (hnull : state ≠ .null) (htext : ∀ s, state ≠ .text s)
    (hobject : ∀ members, state ≠ .object members) :
    Complaint node .state { fault := .unexpectedState state.write (idOfJson node) }

namespace Visit

/-- There is nothing wrong with what is looked at. -/
def Passes (v : Visit) : Prop :=
  match v.aspect with
  | .kind => HasKind v.node
  | .state => HasState v.node

theorem not_passes {v : Visit} {e : LoadError} (h : Complaint v.node v.aspect e) : ¬ v.Passes := by
  obtain ⟨path, node, aspect⟩ := v
  cases h with
  | notObject h =>
    rintro ⟨members, kind, hmembers, -⟩
    exact h members hmembers
  | missingType h htype =>
    rintro ⟨members, kind, hmembers, hkind⟩
    cases h.symm.trans hmembers
    exact htype kind hkind
  | badState h hstate =>
    intro hpasses
    cases hpasses _ h with
    | object hreadable => exact hstate hreadable
  | badMutation h hread =>
    intro hpasses
    cases hpasses _ h with
    | mutation hok => exact hread _ hok
  | unexpected h hnull htext hobject =>
    intro hpasses
    cases hpasses _ h with
    | null => exact hnull rfl
    | object => exact hobject _ rfl
    | mutation => exact htext _ rfl

/-- The error of a look, as the node is read. -/
def error? (v : Visit) : Option LoadError :=
  (match v.aspect with
    | .kind => (kindOfJson v.node).error?
    | .state => (mutationOfJson (idOfJson v.node) v.node).error?).map (.behind v.path)

theorem error?_kind (node : Json) : error? ⟨[], node, .kind⟩ = (kindOfJson node).error? := by
  rw [error?]
  cases (kindOfJson node).error? <;> rfl

theorem error?_state (node : Json) :
    error? ⟨[], node, .state⟩ = (mutationOfJson (idOfJson node) node).error? := by
  rw [error?]
  cases (mutationOfJson (idOfJson node) node).error? <;> rfl

theorem error?_behind (step : LoadStep) (v : Visit) :
    (v.behind step).error? = v.error?.map (.behind [step]) := by
  rw [error?, error?, Option.map_map]
  rfl

end Visit

namespace Block

variable {node : Json}

theorem kindOfJson_cases (node : Json) :
    (kindOfJson node).error? = none ∧ HasKind node ∨
      ∃ e, (kindOfJson node).error? = some e ∧ Complaint node .kind e := by
  unfold kindOfJson
  split
  case h_1 members =>
    rw [LoadM.error?_require]
    cases hkind : Json.textOf? "type" (.object members) with
    | some kind => exact .inl ⟨rfl, members, kind, rfl, Json.textOf?_eq_some_iff.1 hkind⟩
    | none =>
      refine .inr ⟨_, rfl, .missingType rfl fun kind heq ↦ ?_⟩
      rw [Json.textOf?_eq_some_iff.2 heq] at hkind
      cases hkind
  case h_2 hobject => exact .inr ⟨_, rfl, .notObject fun members heq ↦ hobject members heq⟩

/-- An extra state is read, or there is a complaint. -/
theorem ofJson_cases {state : Json} (h : node.member? "extraState" = some state) :
    (Mutation.ofJson (idOfJson node) state).error? = none ∧ ReadableState state ∨
      ∃ e, (Mutation.ofJson (idOfJson node) state).error? = some e ∧ Complaint node .state e := by
  cases state with
  | null => exact .inl ⟨rfl, .null⟩
  | object members =>
    rw [Mutation.ofJson, LoadM.error?_require]
    by_cases hreadable : Mutation.IsReadable (.object members)
    · rw [if_pos (Mutation.isSome_ofObject?.2 hreadable)]
      exact .inl ⟨rfl, .object hreadable⟩
    · rw [if_neg (mt Mutation.isSome_ofObject?.1 hreadable)]
      exact .inr ⟨_, rfl, .badState h hreadable⟩
  | text s =>
    rw [Mutation.ofJson, LoadM.error?_within]
    cases hread : Mutation.read s with
    | ok m => exact .inl ⟨rfl, .mutation hread⟩
    | error e =>
      have hfault : (Mutation.read s).error? =
          if (Xml.Element.read? s).isSome then none else some { fault := .malformedMutation } := by
        rw [Mutation.read, LoadM.error?_bind fun e ↦ LoadM.error?_pure (Mutation.ofXml e),
          LoadM.error?_require, Option.or_none]
      rw [hread] at hfault
      split at hfault
      case isTrue => cases hfault
      case isFalse =>
        cases hfault
        refine .inr ⟨_, rfl, .badMutation h fun m heq ↦ ?_⟩
        rw [hread] at heq
        cases heq
  | bool | number | array =>
    exact .inr ⟨_, rfl, .unexpected h (by simp) (by simp) (by simp)⟩

theorem mutationOfJson_cases (node : Json) :
    (mutationOfJson (idOfJson node) node).error? = none ∧ HasState node ∨
      ∃ e, (mutationOfJson (idOfJson node) node).error? = some e ∧ Complaint node .state e := by
  unfold mutationOfJson
  split
  case h_1 hnone =>
    refine .inl ⟨rfl, fun state hstate ↦ ?_⟩
    rw [hnone] at hstate
    cases hstate
  case h_2 state hstate =>
    refine (ofJson_cases hstate).imp_left fun ⟨herror, hreadable⟩ ↦ ⟨herror, fun state' hstate' ↦ ?_⟩
    cases hstate.symm.trans hstate'
    exact hreadable

end Block

namespace Visit

/-- A look passes, or there is an error and a complaint. -/
theorem cases (v : Visit) : v.error? = none ∧ v.Passes ∨
    ∃ own, v.error? = some (own.behind v.path) ∧ Complaint v.node v.aspect own := by
  obtain ⟨path, node, aspect⟩ := v
  cases aspect with
  | kind =>
    refine (kindOfJson_cases node).imp (fun ⟨herror, hkind⟩ ↦ ⟨?_, hkind⟩)
      fun ⟨own, herror, hown⟩ ↦ ⟨own, ?_, hown⟩ <;> simp [error?, herror]
  | state =>
    refine (mutationOfJson_cases node).imp (fun ⟨herror, hstate⟩ ↦ ⟨?_, hstate⟩)
      fun ⟨own, herror, hown⟩ ↦ ⟨own, ?_, hown⟩ <;> simp [error?, herror]

theorem error?_eq_none_iff {v : Visit} : v.error? = none ↔ v.Passes := by
  obtain ⟨hnone, hpasses⟩ | ⟨own, hsome, hown⟩ := v.cases
  · exact iff_of_true hnone hpasses
  · refine iff_of_false ?_ (not_passes hown)
    rw [hsome]
    simp

end Visit

/-- The errors of a list of lists come in order. -/
theorem findSome?_flatMap {α β γ : Type} {f : α → List β} {g : β → Option γ} (as : List α) :
    (as.flatMap f).findSome? g = as.findSome? fun a ↦ (f a).findSome? g := by
  induction as with
  | nil => rfl
  | cons a as ih =>
    rw [List.flatMap_cons, List.findSome?_append, ih, List.findSome?_cons]
    cases (f a).findSome? g <;> rfl

namespace Block

/-- The error of a block is that of the first visit that fails. -/
theorem error?_ofJson (j : Json) : (ofJson j).error? = (visits j).findSome? Visit.error? := by
  have hchild (node : Json) (step : LoadStep) (h : sizeOf node < sizeOf j) :
      (LoadM.within step (ofJson node)).error? =
        ((visits node).map (.behind step)).findSome? Visit.error? := by
    rw [LoadM.error?_within, error?_ofJson node, List.map_findSome?, List.findSome?_map]
    exact congrArg (List.findSome? · _) (funext fun v ↦ (v.error?_behind step).symm)
  have hinput : ∀ entry ∈ j.membersOf "inputs", (inputOfJson (idOfJson j) entry).error? =
      (inputVisits (idOfJson j) entry).findSome? Visit.error? := by
    intro entry hentry
    rw [inputOfJson, inputVisits]
    cases hnode : connectedNode? entry.2 with
    | none => rfl
    | some node =>
      have hsize : sizeOf node < sizeOf entry.2 := sizeOf_of_connectedNode? hnode
      exact (LoadM.error?_map _ _).trans
        (hchild node _ (Nat.lt_trans hsize (Json.sizeOf_of_mem_membersOf hentry)))
  have hnext : (nextOfJson (idOfJson j) j).error? =
      (nextVisits (idOfJson j) j).findSome? Visit.error? := by
    rw [nextOfJson, nextVisits]
    cases hnode : nextNode? j with
    | none => rfl
    | some node => exact (LoadM.error?_map _ _).trans (hchild node _ (sizeOf_of_nextNode? hnode))
  rw [ofJson_eq, LoadM.error?_bind fun kind ↦ LoadM.error?_bind fun inputs ↦
      LoadM.error?_bind fun next ↦ LoadM.error?_bind fun mutation ↦ LoadM.error?_pure _,
    LoadM.error?_mapM hinput, hnext, visits_eq, List.findSome?_append, List.cons_append,
    List.findSome?_cons, List.findSome?_append, findSome?_flatMap, List.findSome?_singleton,
    Visit.error?_kind, Visit.error?_state]
  cases (kindOfJson j).error? <;> simp [Option.or_assoc]
termination_by sizeOf j

/-- What is visited is reached. -/
theorem reaches_of_mem_visits {j : Json} {v : Visit} (h : v ∈ visits j) :
    Reaches j v.path v.node := by
  have hchild {node : Json} {step : LoadStep} (hsize : sizeOf node < sizeOf j)
      (hmem : v ∈ (visits node).map (.behind step)) :
      ∃ path, v.path = step :: path ∧ Reaches node path v.node := by
    obtain ⟨u, hu, rfl⟩ := List.mem_map.1 hmem
    exact ⟨u.path, rfl, reaches_of_mem_visits hu⟩
  rw [visits_eq, List.mem_append, List.mem_append, List.mem_cons, List.mem_singleton] at h
  obtain ((rfl | hinput) | hnext) | rfl := h
  · exact .self j
  · obtain ⟨⟨name, input⟩, hentry, hmem⟩ := List.mem_flatMap.1 hinput
    unfold inputVisits at hmem
    split at hmem
    case h_1 => cases hmem
    case h_2 node hnode =>
      have hsize := Nat.lt_trans (sizeOf_of_connectedNode? hnode)
        (Json.sizeOf_of_mem_membersOf hentry)
      obtain ⟨path, hpath, hreaches⟩ := hchild hsize hmem
      rw [hpath]
      exact .input hentry hnode hreaches
  · unfold nextVisits at hnext
    split at hnext
    case h_1 => cases hnext
    case h_2 node hnode =>
      obtain ⟨path, hpath, hreaches⟩ := hchild (sizeOf_of_nextNode? hnode) hnext
      rw [hpath]
      exact .next hnode hreaches
  · exact .self j
termination_by sizeOf j

/-- What is reached is visited for everything. -/
theorem mem_visits_of_reaches {j node : Json} {path : List LoadStep} (h : Reaches j path node)
    (aspect : Aspect) : ⟨path, node, aspect⟩ ∈ visits j := by
  induction h with
  | self j =>
    rw [visits_eq]
    cases aspect <;> simp
  | @input j input child node name path hinput hchild _ ih =>
    rw [visits_eq]
    refine List.mem_append_left _ (List.mem_append_left _ (List.mem_cons_of_mem _ ?_))
    refine List.mem_flatMap.2 ⟨(name, input), hinput, ?_⟩
    rw [inputVisits, hchild]
    exact List.mem_map.2 ⟨_, ih, rfl⟩
  | @next j child node path hchild _ ih =>
    rw [visits_eq]
    refine List.mem_append_left _ (List.mem_append_right _ ?_)
    rw [nextVisits, hchild]
    exact List.mem_map.2 ⟨_, ih, rfl⟩

end Block

/-! ## Documents -/

namespace Workspace

/-- What stands for the list of top blocks of a document. -/
def topBlocks? (root : Json) : Option Json := (root.member? "blocks").bind (·.member? "blocks")

/-- The visits to top blocks, in order. -/
def visits (nodes : List Json) : List Visit :=
  nodes.zipIdx.flatMap fun (node, i) ↦ (Block.visits node).map (.behind (.topBlock i))

/-- What a document has to be, whatever its blocks. -/
structure IsDocument (root : Json) : Prop where
  object : ∃ members, root = .object members
  vars : ∀ v, root.member? "variables" = some v →
    ∃ items, v = .array items ∧ ∀ k ∈ items, Variable.IsReadable k
  topBlocks : ∀ v, topBlocks? root = some v → ∃ nodes, v = .array nodes

/-- What a document has to be. -/
structure IsReadable (root : Json) : Prop extends IsDocument root where
  blocks : ∀ nodes, topBlocks? root = some (.array nodes) → ∀ top ∈ nodes, ∀ path node,
    Block.Reaches top path node → Block.HasKind node ∧ Block.HasState node

/-- The error of the top blocks is that of the first visit that fails. -/
theorem error?_topBlocks (nodes : List Json) :
    (nodes.zipIdx.mapM fun (node, i) ↦ LoadM.within (.topBlock i) (Block.ofJson node)).error? =
      (visits nodes).findSome? Visit.error? := by
  rw [visits, findSome?_flatMap, LoadM.error?_mapM]
  rintro ⟨node, i⟩ -
  rw [LoadM.error?_within, Block.error?_ofJson, List.map_findSome?, List.findSome?_map]
  exact congrArg (List.findSome? · _) (funext fun v ↦ (v.error?_behind (.topBlock i)).symm)

theorem error?_variablesOfJson (o : Option Json) :
    (variablesOfJson o).error? = none ∧ (∀ v, o = some v →
        ∃ items, v = .array items ∧ ∀ k ∈ items, Variable.IsReadable k) ∨
      (variablesOfJson o).error? = some { fault := .badVariables } ∧ ¬ ∀ v, o = some v →
        ∃ items, v = .array items ∧ ∀ k ∈ items, Variable.IsReadable k := by
  unfold variablesOfJson
  split
  case h_1 => exact .inl ⟨rfl, nofun⟩
  case h_2 items =>
    have hall : (items.mapM Variable.ofJson?).isSome ↔ ∀ k ∈ items, Variable.IsReadable k := by
      rw [isSome_mapM]
      exact forall₂_congr fun k _ ↦ Variable.isSome_ofJson?
    rw [LoadM.error?_require]
    split
    case isTrue h => exact .inl ⟨rfl, by rintro _ ⟨⟩; exact ⟨items, rfl, hall.1 h⟩⟩
    case isFalse h =>
      refine .inr ⟨rfl, fun hread ↦ ?_⟩
      obtain ⟨_, ⟨⟩, hitems⟩ := hread _ rfl
      exact h (hall.2 hitems)
  case h_3 v harray =>
    refine .inr ⟨rfl, fun hread ↦ ?_⟩
    obtain ⟨items, rfl, -⟩ := hread v rfl
    exact harray items rfl

theorem topNodes_cases (o : Option Json) :
    (∃ nodes, topNodes o = .ok nodes ∧ (o = none ∧ nodes = [] ∨ o = some (.array nodes))) ∨
      topNodes o = .error { fault := .blocksNotArray } ∧ ¬ ∀ v, o = some v →
        ∃ nodes, v = .array nodes := by
  unfold topNodes
  split
  case h_1 => exact .inl ⟨[], rfl, .inl ⟨rfl, rfl⟩⟩
  case h_2 nodes => exact .inl ⟨nodes, rfl, .inr rfl⟩
  case h_3 v harray =>
    refine .inr ⟨rfl, fun hread ↦ ?_⟩
    obtain ⟨nodes, rfl⟩ := hread v rfl
    exact harray nodes rfl

/-- The error of a document is one of the document itself, or that of the first visit that fails. -/
theorem ofJson_cases (root : Json) :
    ¬ IsDocument root ∧ (∃ fault, (ofJson root).error? = some { fault }) ∨
      IsDocument root ∧ ∃ nodes,
        (topBlocks? root = none ∧ nodes = [] ∨ topBlocks? root = some (.array nodes)) ∧
        (ofJson root).error? = (visits nodes).findSome? Visit.error? := by
  cases root with
  | object members =>
    obtain ⟨hvars, hreadable⟩ | ⟨hvars, hreadable⟩ :=
      error?_variablesOfJson ((Json.object members).member? "variables")
    · obtain ⟨vars, hvars⟩ := LoadM.error?_eq_none_iff.1 hvars
      rw [ofJson, hvars]
      obtain ⟨nodes, hnodes, htop⟩ | ⟨hnodes, htop⟩ := topNodes_cases (topBlocks? (.object members))
      · refine .inr ⟨⟨⟨members, rfl⟩, hreadable, fun v hv ↦ ?_⟩, nodes, htop, ?_⟩
        · obtain ⟨hnone, -⟩ | hsome := htop
          · cases hnone.symm.trans hv
          · exact ⟨nodes, Option.some.inj (hv.symm.trans hsome)⟩
        · change (topNodes (topBlocks? (.object members)) >>= _).error? = _
          rw [hnodes]
          refine (LoadM.error?_bind fun topBlocks ↦ LoadM.error?_pure _).trans ?_
          rw [error?_topBlocks, Option.or_none]
      · refine .inl ⟨fun h ↦ htop h.topBlocks, .blocksNotArray, ?_⟩
        change (topNodes (topBlocks? (.object members)) >>= _).error? = _
        rw [hnodes]
        rfl
    · refine .inl ⟨fun h ↦ hreadable h.vars, .badVariables, ?_⟩
      rw [ofJson, LoadM.error?_eq_some_iff.1 hvars]
      rfl
  | _ =>
    refine .inl ⟨fun h ↦ ?_, .rootNotObject, rfl⟩
    obtain ⟨members, hmembers⟩ := h.object
    cases hmembers

/-- What is visited is reached from a top block. -/
theorem exists_of_mem_visits {nodes : List Json} {v : Visit} (h : v ∈ visits nodes) :
    ∃ i top path, nodes[i]? = some top ∧ Block.Reaches top path v.node ∧
      v.path = .topBlock i :: path := by
  obtain ⟨⟨top, i⟩, htop, hmem⟩ := List.mem_flatMap.1 h
  obtain ⟨u, hu, rfl⟩ := List.mem_map.1 hmem
  exact ⟨i, top, u.path, List.mem_zipIdx_iff_getElem?.1 htop, Block.reaches_of_mem_visits hu, rfl⟩

/-- All visits pass if and only if every block that is reached has a kind and a readable state. -/
theorem forall_passes_iff {nodes : List Json} : (∀ v ∈ visits nodes, v.Passes) ↔
    ∀ top ∈ nodes, ∀ path node, Block.Reaches top path node →
      Block.HasKind node ∧ Block.HasState node := by
  constructor
  · intro h top htop path node hreaches
    obtain ⟨i, hi⟩ := List.mem_iff_getElem?.1 htop
    have hvisit (aspect : Aspect) : Visit.Passes ⟨.topBlock i :: path, node, aspect⟩ :=
      h _ (List.mem_flatMap.2 ⟨(top, i), List.mem_zipIdx_iff_getElem?.2 hi,
        List.mem_map.2 ⟨_, Block.mem_visits_of_reaches hreaches aspect, rfl⟩⟩)
    exact ⟨hvisit .kind, hvisit .state⟩
  · intro h v hv
    obtain ⟨i, top, path, htop, hreaches, -⟩ := exists_of_mem_visits hv
    obtain ⟨hkind, hstate⟩ := h top (List.mem_of_getElem? htop) path v.node hreaches
    obtain ⟨path, node, aspect⟩ := v
    cases aspect with
    | kind => exact hkind
    | state => exact hstate

/-- An error that shows the path from a document to the node that is visited when a visit fails for
the first time, before what is said of the node itself. -/
def ShowsFirst (root : Json) (e : LoadError) : Prop :=
  ∃ nodes before v after own, topBlocks? root = some (.array nodes) ∧
    visits nodes = before ++ v :: after ∧ (∀ u ∈ before, u.Passes) ∧ ¬ v.Passes ∧
    (∃ i top path, nodes[i]? = some top ∧ Block.Reaches top path v.node ∧
      v.path = .topBlock i :: path) ∧
    Complaint v.node v.aspect own ∧ e.path = v.path ++ own.path ∧ e.fault = own.fault ∧
    e.messages = v.path.map LoadStep.message ++ own.messages

/-- A document is read if and only if it is readable.  A document that is refused is either no
document, or the error shows the path to the first bad node of a block. -/
theorem ofJson_verdict (root : Json) :
    ((∃ w, ofJson root = .ok w) ↔ IsReadable root) ∧
      ∀ e, ofJson root = .error e →
        ¬ IsDocument root ∧ e.path = [] ∨ IsDocument root ∧ ShowsFirst root e := by
  obtain ⟨hdocument, fault, herror⟩ | ⟨hdocument, nodes, htop, herror⟩ := ofJson_cases root
  · refine ⟨iff_of_false ?_ fun h ↦ hdocument h.toIsDocument, fun e he ↦ .inl ⟨hdocument, ?_⟩⟩
    · rintro ⟨w, hw⟩
      rw [hw] at herror
      cases herror
    · rw [he] at herror
      cases herror
      rfl
  · refine ⟨?_, fun e he ↦ .inr ⟨hdocument, ?_⟩⟩
    · have hpasses : (∀ v ∈ visits nodes, v.error? = none) ↔ ∀ v ∈ visits nodes, v.Passes :=
        forall₂_congr fun v _ ↦ Visit.error?_eq_none_iff
      rw [← LoadM.error?_eq_none_iff, herror, List.findSome?_eq_none_iff, hpasses,
        forall_passes_iff]
      obtain ⟨hnone, rfl⟩ | hsome := htop
      · refine iff_of_true nofun ⟨hdocument, fun nodes' hnodes' ↦ ?_⟩
        cases hnone.symm.trans hnodes'
      · refine ⟨fun h ↦ ⟨hdocument, fun nodes' hnodes' ↦ ?_⟩, fun h ↦ h.blocks nodes hsome⟩
        cases hsome.symm.trans hnodes'
        exact h
    · rw [he] at herror
      obtain ⟨before, v, after, hvisits, hv, hbefore⟩ := List.findSome?_eq_some_iff.1 herror.symm
      have hmem : v ∈ visits nodes := hvisits ▸ List.mem_append_right before List.mem_cons_self
      obtain ⟨hnone, -⟩ | ⟨own, hown, hcomplaint⟩ := v.cases
      · rw [hnone] at hv
        cases hv
      · cases hown.symm.trans hv
        obtain ⟨-, rfl⟩ | hsome := htop
        · cases hmem
        · exact ⟨nodes, before, v, after, own, hsome, hvisits,
            fun u hu ↦ Visit.error?_eq_none_iff.1 (hbefore u hu), Visit.not_passes hcomplaint,
            exists_of_mem_visits hmem, hcomplaint, rfl, rfl, own.messages_behind v.path⟩

/-- A document in which the second top block has a bad node behind a shadow in an input, and a bad
extra state. -/
def strayNode : Json :=
  .object [("blocks", .object [("blocks", .array [
    .object [("type", .text "logo_pen")],
    .object [("type", .text "text_print"), ("id", .text "p"),
      ("inputs", .object [("TEXT", .object [("shadow", .object [
        ("type", .text "text"), ("id", .text "t"),
        ("next", .object [("block", .null)])])])]),
      ("extraState", .bool true)]])])]

theorem ofJson_strayNode : ofJson strayNode =
    .error { path := [.topBlock 1, .input "TEXT" "p", .next "t"], fault := .blockNotObject } := by
  have herror : (ofJson strayNode).error? =
      some { path := [.topBlock 1, .input "TEXT" "p", .next "t"], fault := .blockNotObject } := by
    decide +kernel
  exact LoadM.error?_eq_some_iff.1 herror

theorem ofJson_verdict_strayNode : ∃ e, ofJson strayNode = .error e ∧
    e.messages = ["Invalid top block #1.", "Invalid input 'TEXT' of block 'p'.",
      "Invalid next block of 't'.", "Block entry is not an object."] ∧
    (¬ IsDocument strayNode ∧ e.path = [] ∨ IsDocument strayNode ∧ ShowsFirst strayNode e) :=
  ⟨_, ofJson_strayNode, by decide, (ofJson_verdict strayNode).2 _ ofJson_strayNode⟩

end Workspace

end Turtle

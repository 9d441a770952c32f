import Turtle.Proofs.Compile.Ignored
import Turtle.Proofs.Emitter.Blame

/-!
# Blocks without their comments

A block is hushed by taking out its comment and those of all blocks connected to it.  Of the
comments that are taken out, those of expressions stand in front of the nearest statement, and those
of statements in front of the statement itself.  So every comment is in front of one block, provided
that values and statements are connected where they belong.
-/

namespace Turtle

namespace Block

/-! ## Changing heads -/

/-- A block with its head, and those of all blocks connected to it, changed. -/
def mapHeads (f : Head → Head) (b : Block) : Block :=
  let inputs := b.inputs.attach.map fun i ↦
    match _h : i.1.target with
    | none => i.1
    | some c => { i.1 with target := some (c.mapHeads f) }
  let next := match _h : b.next with
    | none => none
    | some c => some (c.mapHeads f)
  { head := f b.head, inputs, next }
termination_by sizeOf b
decreasing_by
  · exact sizeOf_target_of_mem i.2 _h
  · exact sizeOf_next _h

/-- An input with the heads changed. -/
def mapInput (f : Head → Head) (i : Input Block) : Input Block :=
  { i with target := i.target.map (mapHeads f) }

variable (f : Head → Head) (b : Block)

theorem mapHeads_eq : b.mapHeads f =
    { head := f b.head, inputs := b.inputs.map (mapInput f), next := b.next.map (mapHeads f) } := by
  have hinputs : (b.inputs.attach.map fun i ↦ match _h : i.1.target with
      | none => i.1
      | some c => { i.1 with target := some (c.mapHeads f) }) = b.inputs.map (mapInput f) := by
    rw [List.map_subtype (g := mapInput f), List.unattach_attach]
    rintro ⟨name, shape, target⟩ _
    cases target <;> rfl
  rw [mapHeads, hinputs]
  cases b.next <;> rfl

@[simp] theorem mapHeads_head : (b.mapHeads f).head = f b.head := by rw [mapHeads_eq]

@[simp] theorem mapHeads_inputs : (b.mapHeads f).inputs = b.inputs.map (mapInput f) := by
  rw [mapHeads_eq]

@[simp] theorem mapHeads_next : (b.mapHeads f).next = b.next.map (mapHeads f) := by
  rw [mapHeads_eq]

theorem mapHeads_target? (name : String) :
    (b.mapHeads f).target? name = (b.target? name).map (mapHeads f) := by
  rw [target?, input?, mapHeads_inputs, List.find?_map, target?, input?]
  change ((b.inputs.find? (·.name == name)).map (mapInput f)).bind _ = _
  cases b.inputs.find? (·.name == name) <;> rfl

theorem descendants_mapHeads :
    (b.mapHeads f).descendants = b.descendants.map (mapHeads f) := by
  induction b using Block.induct with
  | step b hinputs hnext =>
    have htree : ∀ i ∈ b.inputs, (mapInput f i).tree = i.tree.map (mapHeads f) := by
      intro i hi
      rw [Input.tree, Input.tree, mapInput]
      cases hc : i.target with
      | none => rfl
      | some c => exact hinputs i hi c hc
    have hinner : (b.mapHeads f).inner = b.inner.map (mapHeads f) := by
      rw [inner, inner, mapHeads_inputs, List.flatMap_map, List.map_flatMap]
      exact List.flatMap_congr htree
    have hbehind : (b.mapHeads f).behind = b.behind.map (mapHeads f) := by
      rw [behind, behind, mapHeads_next]
      cases hc : b.next with
      | none => rfl
      | some c => exact hnext c hc
    rw [descendants_eq_append, descendants_eq_append, hinner, hbehind, List.map_append,
      List.map_cons]

/-! ## Hushing -/

/-- A block without its comment and those of all blocks connected to it. -/
def hushed : Block := b.mapHeads fun h ↦ { h with comment := none }

@[simp] theorem hushed_head : b.hushed.head = { b.head with comment := none } :=
  mapHeads_head _ b

@[simp] theorem hushed_next : b.hushed.next = b.next.map hushed := mapHeads_next _ b

theorem hushed_target? (name : String) :
    b.hushed.target? name = (b.target? name).map hushed := mapHeads_target? _ b name

theorem isSilent_hushed : b.hushed.IsSilent := by
  intro d hd
  rw [hushed, descendants_mapHeads] at hd
  obtain ⟨d', -, rfl⟩ := List.mem_map.1 hd
  rw [mapHeads_head]
  rfl

/-! ## Lines of comments -/

variable {b} {width : Nat}

/-- The lines of the comment of a block: as they are for an expression, and wrapped for a
statement. -/
def remarkLines (width : Nat) (b : Block) : List String :=
  b.head.comment?.toList.flatMap fun comment ↦
    textLines (if b.IsExpression then comment else wrap (width - 3) comment)

/-- The blocks that are connected to an input for values. -/
def valueTree (i : Input Block) : List Block := if i.shape = .value then i.tree else []

/-- The blocks that are connected to an input for statements. -/
def statementTree (i : Input Block) : List Block := if i.shape = .statement then i.tree else []

/-- Whether statements are connected to an input. -/
def holdsStatements (i : Input Block) : Bool := i.shape = .statement && i.target.isSome

/-- The blocks that are connected to the first input of a name, if it is one for statements. -/
def bodyTree (b : Block) (name : String) : List Block :=
  ((b.input? name).map statementTree).getD []

/-- Of the first inputs of some names, those to which statements are connected. -/
def bodies (b : Block) (names : List String) : List (Input Block) :=
  names.filterMap fun name ↦ (b.input? name).filter holdsStatements

theorem holdsStatements_iff {i : Input Block} :
    holdsStatements i ↔ i.shape = .statement ∧ i.target.isSome := by
  simp [holdsStatements]

theorem statementTree_eq_nil {i : Input Block} (h : ¬ holdsStatements i) :
    statementTree i = [] := by
  rw [holdsStatements_iff, not_and, Option.not_isSome_iff_eq_none] at h
  rw [statementTree]
  split
  case isTrue hshape => rw [Input.tree, h hshape]; rfl
  case isFalse => rfl

theorem flatMap_statementTree (inputs : List (Input Block)) :
    inputs.flatMap statementTree = (inputs.filter holdsStatements).flatMap statementTree := by
  induction inputs with
  | nil => rfl
  | cons i inputs ih =>
    rw [List.flatMap_cons, ih]
    by_cases h : holdsStatements i
    · rw [List.filter_cons_of_pos h, List.flatMap_cons]
    · rw [List.filter_cons_of_neg h, statementTree_eq_nil h, List.nil_append]

theorem flatMap_bodyTree (b : Block) (names : List String) :
    names.flatMap b.bodyTree = (b.bodies names).flatMap statementTree := by
  rw [bodies, List.filterMap_eq_flatMap_toList, List.flatMap_assoc]
  refine List.flatMap_congr fun name _ ↦ ?_
  rw [bodyTree]
  cases b.input? name with
  | none => rfl
  | some i =>
    by_cases h : holdsStatements i
    · simp [Option.filter, h]
    · simp [Option.filter, h, statementTree_eq_nil h]

theorem mem_bodies {names : List String} {i : Input Block} :
    i ∈ b.bodies names ↔ ∃ name ∈ names, b.input? name = some i ∧ holdsStatements i := by
  simp only [bodies, List.mem_filterMap, Option.filter_eq_some_iff]

theorem name_of_input? {name : String} {i : Input Block} (h : b.input? name = some i) :
    i.name = name := by
  simpa using List.find?_some h

theorem perm_inner (b : Block) :
    b.inner.Perm (b.inputs.flatMap valueTree ++ b.inputs.flatMap statementTree) := by
  refine .trans ?_ (List.flatMap_append_perm b.inputs valueTree statementTree).symm
  refine .of_eq (List.flatMap_congr fun i _ ↦ ?_)
  rw [valueTree, statementTree]
  cases i.shape <;> simp

/-- A block to which values and statements are connected where they belong. -/
structure WellConnected (b : Block) : Prop where
  /-- Inputs for values hold expressions with nothing behind them. -/
  values : ∀ i ∈ b.inputs, i.shape = .value → ∀ t, i.target = some t →
    t.IsExpression ∧ t.next = none
  /-- Inputs for statements hold statements, and the kind of block has such inputs. -/
  statements : ∀ i ∈ b.inputs, i.shape = .statement → ∀ t, i.target = some t →
    Emitter.shape? t.head.kind = some .statement ∧
      Emitter.inputShape b.head.kind i.name = .statement
  /-- Statements are connected to the first input of a name, which is the one that is looked up. -/
  first : b.inputs.Pairwise fun j i ↦ holdsStatements i → j.name ≠ i.name

instance : DecidablePred WellConnected := fun b ↦
  decidable_of_iff ((∀ i ∈ b.inputs, i.shape = .value → ∀ t ∈ i.target,
        t.IsExpression ∧ t.next = none) ∧
      (∀ i ∈ b.inputs, i.shape = .statement → ∀ t ∈ i.target,
        Emitter.shape? t.head.kind = some .statement ∧
          Emitter.inputShape b.head.kind i.name = .statement) ∧
      b.inputs.Pairwise fun j i ↦ holdsStatements i → j.name ≠ i.name)
    ⟨fun h ↦ ⟨h.1, h.2.1, h.2.2⟩, fun h ↦ ⟨h.values, h.statements, h.first⟩⟩

namespace WellConnected

/-- Expressions have no statements below them. -/
theorem isExpression_of_value (hb : ∀ d ∈ b.descendants, d.WellConnected) (h : b.IsExpression)
    (hnext : b.next = none) : ∀ d ∈ b.descendants, d.IsExpression := by
  have hstatements : ∀ entry ∈ Emitter.statementInputs,
      Emitter.shape? entry.1 = some .statement := by
    decide
  induction b using Block.induct with
  | step b hinputs _ =>
    intro d hd
    rcases mem_descendants_iff.1 hd with rfl | hd
    · exact h
    · rcases mem_strict_iff.1 hd with ⟨i, hi, c, hc, hd⟩ | ⟨c, hc, -⟩
      · have hself := hb b b.self_mem_descendants
        cases hshape : i.shape with
        | value =>
          obtain ⟨hexpression, hlast⟩ := hself.values i hi hshape c hc
          exact hinputs i hi c hc (forall_of_input hb hi hc) hexpression hlast d hd
        | statement =>
          have hinput := (hself.statements i hi hshape c hc).2
          have hkind := hstatements _ (Emitter.inputShape_eq_statement_iff.1 hinput)
          rw [h] at hkind
          cases hkind
      · rw [hnext] at hc
        cases hc

/-- The comments in front of a statement are its own and those of the expressions in it. -/
theorem commentLines_eq (hb : ∀ d ∈ b.descendants, d.WellConnected) (h : ¬ b.IsExpression) :
    b.commentLines width =
      b.remarkLines width ++ (b.inputs.flatMap valueTree).flatMap (remarkLines width) := by
  have hlines (c : Block) (hc : ∀ d ∈ c.descendants, d.IsExpression) :
      c.allComments.flatMap textLines = c.descendants.flatMap (remarkLines width) := by
    rw [allComments, List.filterMap_eq_flatMap_toList, List.flatMap_assoc]
    refine List.flatMap_congr fun d hd ↦ ?_
    rw [remarkLines]
    simp only [if_pos (hc d hd)]
  have hself := hb b b.self_mem_descendants
  rw [commentLines, remarkLines]
  simp only [if_neg h]
  congr 1
  rw [List.flatMap_assoc, List.flatMap_assoc]
  refine List.flatMap_congr fun i hi ↦ ?_
  obtain ⟨name, shape, target⟩ := i
  cases shape with
  | statement => rfl
  | value =>
    cases target with
    | none => rfl
    | some c =>
      obtain ⟨hexpression, hnext⟩ := hself.values _ hi rfl c rfl
      exact hlines c (isExpression_of_value (forall_of_input hb hi rfl) hexpression hnext)

/-- An input that holds statements is the first one of its name. -/
theorem input?_eq (hb : b.WellConnected) {i : Input Block} (hi : i ∈ b.inputs)
    (h : holdsStatements i) : b.input? i.name = some i := by
  have hfirst := hb.first
  rw [input?]
  generalize b.inputs = inputs at hi hfirst ⊢
  induction inputs with
  | nil => cases hi
  | cons j inputs ih =>
    obtain ⟨hj, hrest⟩ := List.pairwise_cons.1 hfirst
    rcases List.mem_cons.1 hi with rfl | hi
    · exact List.find?_cons_of_pos (beq_self_eq_true _)
    · rw [List.find?_cons_of_neg (by simpa using hj i hi h)]
      exact ih hi hrest

/-- The inputs that hold statements are all found by the names that belong to the kind of block. -/
theorem perm_filter (hb : b.WellConnected) {names : List String} (hnames : names.Nodup)
    (hall : ∀ entry ∈ Emitter.statementInputs, entry.1 = b.head.kind → entry.2 ∈ names) :
    (b.inputs.filter holdsStatements).Perm (b.bodies names) := by
  refine (List.perm_ext_iff_of_nodup ?_ ?_).2 fun i ↦ ?_
  · refine (hb.first.filter holdsStatements).imp_of_mem fun {j i} _ hi hfirst heq ↦ ?_
    exact hfirst (List.mem_filter.1 hi).2 (heq ▸ rfl)
  · refine hnames.filterMap fun name name' i hi hi' ↦ ?_
    obtain ⟨hi, -⟩ := Option.filter_eq_some_iff.1 hi
    obtain ⟨hi', -⟩ := Option.filter_eq_some_iff.1 hi'
    exact (name_of_input? hi).symm.trans (name_of_input? hi')
  · rw [List.mem_filter, mem_bodies]
    constructor
    · rintro ⟨hi, h⟩
      obtain ⟨hshape, htarget⟩ := holdsStatements_iff.1 h
      obtain ⟨t, ht⟩ := Option.isSome_iff_exists.1 htarget
      have hinput := Emitter.inputShape_eq_statement_iff.1 (hb.statements i hi hshape t ht).2
      exact ⟨i.name, hall _ hinput rfl, hb.input?_eq hi h, h⟩
    · rintro ⟨name, -, hi, h⟩
      exact ⟨List.mem_of_find?_eq_some hi, h⟩

/-- The statements connected to a block are those in its bodies. -/
theorem perm_bodies (hb : b.WellConnected) {names : List String} (hnames : names.Nodup)
    (hall : ∀ entry ∈ Emitter.statementInputs, entry.1 = b.head.kind → entry.2 ∈ names) :
    (b.inputs.flatMap statementTree).Perm (names.flatMap b.bodyTree) := by
  rw [flatMap_statementTree, flatMap_bodyTree]
  exact (hb.perm_filter hnames hall).flatMap_right _

/-- There is nothing behind an expression that is looked up. -/
theorem next_eq_none (hb : b.WellConnected) {name : String} {t : Block}
    (ht : b.target? name = some t) (h : t.IsExpression) : t.next = none := by
  obtain ⟨i, hi, hit⟩ := Option.bind_eq_some_iff.1 ht
  have hmem := List.mem_of_find?_eq_some hi
  cases hshape : i.shape with
  | value => exact (hb.values i hmem hshape t hit).2
  | statement =>
    rw [IsExpression, (hb.statements i hmem hshape t hit).1] at h
    cases h

/-- If no expression is connected where a body is looked up, its blocks are those that are found. -/
theorem bodyTree_eq (hb : b.WellConnected) {name : String}
    (h : ∀ t, b.target? name = some t → ¬ t.IsExpression) :
    b.bodyTree name = ((b.target? name).map descendants).getD [] := by
  rw [bodyTree, target?]
  cases hi : b.input? name with
  | none => rfl
  | some i =>
    have htarget : b.target? name = i.target := by rw [target?, hi, Option.bind_some]
    cases hshape : i.shape with
    | statement => simp [statementTree, hshape, Input.tree]
    | value =>
      cases ht : i.target with
      | none => simp [statementTree, hshape, ht]
      | some t =>
        have hvalue := (hb.values i (List.mem_of_find?_eq_some hi) hshape t ht).1
        exact absurd hvalue (h t (htarget.trans ht))

end WellConnected

end Block

end Turtle

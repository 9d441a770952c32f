import Turtle.Proofs.Block
import Turtle.Proofs.Compile.Snippet
import Turtle.Proofs.Compile.Trace

/-!
# How often snippets fire

For every block that is emitted, the snippets that are put into the program are told by its kind, by
what its emitter was told, and, for an expression, by whether it is a top block.
-/

namespace Turtle

/-- The kinds of loops. -/
def loopKinds : List String := [
  "controls_repeat_ext", "controls_repeat", "controls_whileUntil", "controls_for",
  "controls_forEach"]

/-- The snippets for a statement.  A loop has those around it in its body once more, and a statement
that branches or returns has the one after it in two places. -/
def statementSites (kind : String) : List Site :=
  if kind ∈ loopKinds then [.before, .after, .trap, .before, .after]
  else if kind = "controls_ifelse" ∨ kind = "procedures_ifreturn" then [.before, .after, .after]
  else [.before, .after]

/-- Whether a request was answered by a text that is not empty. -/
def Exchange.answers (q : Request) : Exchange → Bool
  | .answered q' answer => q' = q && answer != ""
  | .hoisted _ _ _ => false

/-- The snippets for a definition.  If it has both statements and a value to return, those around it
stand once more between them. -/
def definitionSites (log : List Exchange) : List Site :=
  if log.any (·.answers (.body "STACK")) && log.any (·.answers (.value "RETURN" .loose)) then
    [.before, .after, .trap, .before, .after]
  else [.before, .after, .trap]

/-- The snippets for an emitted block.  An expression has some only if it is a top block that leaves
code. -/
def Workspace.sites (w : Workspace) (o : Options) (b : Block) (log : List Exchange) :
    Emission → List Site
  | .statement _ => statementSites b.head.kind
  | .hoisted => definitionSites log
  | .value code _ =>
    if b.head.id ∈ w.topBlocks.map (·.head.id) ∧ b.comments o.commentWidth ++ code ≠ "" then
      [.before, .after]
    else []

/-- A block with the snippets that are put into the program for it. -/
structure Firing where
  block : Block
  sites : List Site

namespace Firing

/-- The marks of a firing. -/
def marks (f : Firing) : List Mark := f.sites.map (Mark.mk · f.block.head.id)

/-- The marks of some firings, in any order. -/
def allMarks (fs : List Firing) : Multiset Mark := ↑(fs.flatMap marks)

@[simp] theorem allMarks_nil : allMarks [] = 0 := rfl

@[simp] theorem allMarks_append (fs fs' : List Firing) :
    allMarks (fs ++ fs') = allMarks fs + allMarks fs' := by
  rw [allMarks, List.flatMap_append, ← Multiset.coe_add]
  rfl

theorem allMarks_singleton (f : Firing) : allMarks [f] = ↑f.marks := by
  rw [allMarks, List.flatMap_singleton]

theorem count_marks (f : Firing) (site : Site) (id : String) :
    f.marks.count ⟨site, id⟩ = if f.block.head.id = id then f.sites.count site else 0 := by
  rw [marks]
  split
  case isTrue h =>
    have hinjective : Function.Injective (Mark.mk · f.block.head.id) := fun _ _ h ↦
      (Mark.mk.inj h).1
    rw [← h, List.count_map_of_injective _ _ hinjective]
  case isFalse h =>
    rw [List.count_eq_zero]
    intro hmem
    obtain ⟨_, -, heq⟩ := List.mem_map.1 hmem
    exact h (Mark.mk.inj heq).2

/-- A block that has no firing has no marks. -/
theorem count_allMarks_eq_zero {fs : List Firing} {id : String}
    (h : ∀ f ∈ fs, f.block.head.id ≠ id) (site : Site) : (allMarks fs).count ⟨site, id⟩ = 0 := by
  rw [allMarks, Multiset.coe_count, List.count_eq_zero]
  intro hmem
  obtain ⟨f, hf, hmark⟩ := List.mem_flatMap.1 hmem
  have hcount := f.count_marks site id
  rw [if_neg (h f hf), List.count_eq_zero] at hcount
  exact hcount hmark

/-- With one firing for each id, the marks of an id are those of its firing. -/
theorem count_allMarks {fs : List Firing} (hnodup : (fs.map (·.block.head.id)).Nodup) {f : Firing}
    (hf : f ∈ fs) (site : Site) :
    (allMarks fs).count ⟨site, f.block.head.id⟩ = f.sites.count site := by
  induction fs with
  | nil => cases hf
  | cons g fs ih =>
    obtain ⟨hg, hfs⟩ := List.nodup_cons.1 hnodup
    rw [show g :: fs = [g] ++ fs from rfl, allMarks_append, Multiset.count_add, allMarks,
      List.flatMap_singleton, Multiset.coe_count, count_marks]
    rcases List.mem_cons.1 hf with rfl | hf
    · rw [if_pos rfl, count_allMarks_eq_zero, Nat.add_zero]
      exact fun f' hf' heq ↦ hg (List.mem_map.2 ⟨f', hf', heq⟩)
    · rw [ih hfs hf, if_neg, Nat.zero_add]
      exact fun heq ↦ hg (List.mem_map.2 ⟨f, hf, heq.symm⟩)

end Firing

namespace Event

/-- The firing of an event.  Expressions that are no top blocks have none. -/
def firing? (o : Options) (w : Workspace) : Event → Option Firing
  | exchange _ _ => none
  | emitted b log (.value code order) =>
    if b.head.id ∈ w.topBlocks.map (·.head.id) then some ⟨b, w.sites o b log (.value code order)⟩
    else none
  | emitted b log emission => some ⟨b, w.sites o b log emission⟩

end Event

/-- What fires in some events. -/
def firings (o : Options) (w : Workspace) (events : List Event) : List Firing :=
  events.filterMap (Event.firing? o w)

section

variable {o : Options} {w : Workspace}

@[simp] theorem firings_nil : firings o w [] = [] := rfl

@[simp] theorem firings_append (events events' : List Event) :
    firings o w (events ++ events') = firings o w events ++ firings o w events' :=
  List.filterMap_append

@[simp] theorem firings_exchange (b : Block) (x : Exchange) (events : List Event) :
    firings o w (.exchange b x :: events) = firings o w events := rfl

@[simp] theorem firings_statement (b : Block) (log : List Exchange) (code : String)
    (events : List Event) : firings o w (.emitted b log (.statement code) :: events) =
      ⟨b, statementSites b.head.kind⟩ :: firings o w events := rfl

@[simp] theorem firings_hoisted (b : Block) (log : List Exchange) (events : List Event) :
    firings o w (.emitted b log .hoisted :: events) =
      ⟨b, definitionSites log⟩ :: firings o w events := rfl

theorem firings_value {b : Block} (hb : b.head.id ∉ w.topBlocks.map (·.head.id))
    (log : List Exchange) (code : String) (order : Logo.Order) (events : List Event) :
    firings o w (.emitted b log (.value code order) :: events) = firings o w events :=
  List.filterMap_cons_none (if_neg hb)

theorem firings_value_top {b : Block} (hb : b.head.id ∈ w.topBlocks.map (·.head.id))
    (log : List Exchange) (code : String) (order : Logo.Order) (events : List Event) :
    firings o w (.emitted b log (.value code order) :: events) =
      ⟨b, w.sites o b log (.value code order)⟩ :: firings o w events :=
  List.filterMap_cons_some (if_pos hb)

end

/-! ## Blocks connected to inputs -/

/-- What is connected to the first input of a name. -/
def treeOf (inputs : List (Input Block)) (name : String) : List Block :=
  ((inputs.find? (·.name == name)).map Input.tree).getD []

theorem treeOf_cons_of_ne {i : Input Block} {name : String} (h : i.name ≠ name)
    (inputs : List (Input Block)) : treeOf (i :: inputs) name = treeOf inputs name := by
  rw [treeOf, List.find?_cons_of_neg (by simpa using h), treeOf]

theorem treeOf_cons_self (i : Input Block) (inputs : List (Input Block)) :
    treeOf (i :: inputs) i.name = i.tree := by
  rw [treeOf, List.find?_cons_of_pos (by simp)]
  rfl

/-- What is connected to inputs of different names is apart. -/
theorem treeOf_le (inputs : List (Input Block)) {names : List String} (h : names.Nodup) :
    (↑(names.flatMap (treeOf inputs)) : Multiset Block) ≤ ↑(inputs.flatMap Input.tree) := by
  induction inputs generalizing names with
  | nil =>
    have hnil : names.flatMap (treeOf []) = [] := List.flatMap_eq_nil_iff.2 fun _ _ ↦ rfl
    rw [hnil]
    exact Multiset.zero_le _
  | cons i inputs ih =>
    have hrest {names : List String} (hi : i.name ∉ names) :
        names.flatMap (treeOf (i :: inputs)) = names.flatMap (treeOf inputs) :=
      List.flatMap_congr fun name hname ↦ treeOf_cons_of_ne (by rintro rfl; exact hi hname) inputs
    rw [List.flatMap_cons, ← Multiset.coe_add]
    by_cases hi : i.name ∈ names
    · have hperm := (List.perm_cons_erase hi).flatMap_right (treeOf (i :: inputs))
      rw [Multiset.coe_eq_coe.2 hperm, List.flatMap_cons, ← Multiset.coe_add, treeOf_cons_self,
        hrest (fun hmem ↦ (h.mem_erase_iff.1 hmem).1 rfl)]
      exact Multiset.add_le_add_left (ih (h.erase i.name))
    · rw [hrest hi]
      exact (ih h).trans (Multiset.le_add_left _ _)

namespace Block

/-- The blocks below an input. -/
def under (b : Block) (name : String) : List Block := treeOf b.inputs name

theorem under_eq (b : Block) (name : String) :
    b.under name = ((b.target? name).map descendants).getD [] := by
  rw [under, treeOf, target?, input?]
  cases b.inputs.find? (·.name == name) <;> rfl

end Block

end Turtle

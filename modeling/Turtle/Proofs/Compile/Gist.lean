import Mathlib.Tactic.Set
import Turtle.Compile.Session
import Turtle.Proofs.Block
import Turtle.Proofs.Emitter.Agreement
import Turtle.Proofs.Workspace.Sorting

/-!
# The gist of a workspace

Documents tell more about blocks than a compiler takes in.  Of a field only the text counts, of a
reference to a variable that is its id; a comment without text is none; and of an input to which
nothing is connected only the name counts.  The gist of a block is what is left without all this,
and it is compiled like the block itself.
-/

namespace Turtle

open Logo (Order)

/-! ## Forgetting -/

namespace Head

/-- A head with the texts of its fields, and without an empty comment. -/
def gist (h : Head) : Head :=
  { h with comment := h.comment?, fields := h.fields.map fun f ↦ (f.1, .text f.2.toText) }

variable (h : Head)

@[simp] theorem gist_kind : h.gist.kind = h.kind := rfl

@[simp] theorem gist_id : h.gist.id = h.id := rfl

@[simp] theorem gist_enabled : h.gist.enabled = h.enabled := rfl

@[simp] theorem gist_mutation : h.gist.mutation = h.mutation := rfl

@[simp] theorem gist_comment? : h.gist.comment? = h.comment? := by
  simp only [comment?, gist, Option.filter_filter, Bool.and_self]

@[simp] theorem gist_isDefinition : h.gist.isDefinition = h.isDefinition := rfl

theorem gist_field? (name : String) :
    h.gist.field? name = (h.field? name).map fun v ↦ .text v.toText := by
  change (h.fields.map fun f ↦ (f.1, FieldValue.text f.2.toText)).lookup name =
    (h.fields.lookup name).map fun v ↦ .text v.toText
  induction h.fields with
  | nil => rfl
  | cons f fields ih =>
    obtain ⟨key, v⟩ := f
    simp only [List.map_cons, List.lookup_cons, ih]
    cases name == key <;> rfl

@[simp] theorem gist_field (name : String) : h.gist.field name = h.field name := by
  rw [field, field, gist_field?, Option.map_map]
  rfl

@[simp] theorem gist_hasField (name : String) : h.gist.hasField name = h.hasField name := by
  rw [hasField, hasField, gist_field?, Option.isSome_map]

end Head

namespace Block

/-- A block without what no compiler takes in. -/
def gist (b : Block) : Block :=
  let inputs := b.inputs.attach.map fun i ↦
    match _h : i.1.target with
    | none => { name := i.1.name, shape := .value, target := none }
    | some c => { name := i.1.name, shape := i.1.shape, target := some c.gist }
  let next := match _h : b.next with
    | none => none
    | some c => some c.gist
  { head := b.head.gist, inputs, next }
termination_by sizeOf b
decreasing_by
  · exact sizeOf_target_of_mem i.2 _h
  · exact sizeOf_next _h

/-- An input without what no compiler takes in. -/
def inputGist (i : Input Block) : Input Block :=
  match i.target with
  | none => { name := i.name, shape := .value, target := none }
  | some c => { name := i.name, shape := i.shape, target := some c.gist }

@[simp] theorem inputGist_name (i : Input Block) : (inputGist i).name = i.name := by
  unfold inputGist
  split <;> rfl

@[simp] theorem inputGist_target (i : Input Block) :
    (inputGist i).target = i.target.map gist := by
  unfold inputGist
  split <;> simp_all

theorem inputGist_shape {i : Input Block} {c : Block} (h : i.target = some c) :
    (inputGist i).shape = i.shape := by
  unfold inputGist
  split <;> simp_all

theorem gist_eq (b : Block) : b.gist =
    { head := b.head.gist, inputs := b.inputs.map inputGist, next := b.next.map gist } := by
  have hinputs : (b.inputs.attach.map fun i ↦ match _h : i.1.target with
      | none => { name := i.1.name, shape := .value, target := none }
      | some c => { name := i.1.name, shape := i.1.shape, target := some c.gist }) =
        b.inputs.map inputGist := by
    rw [List.map_subtype (g := inputGist), List.unattach_attach]
    intro i _
    simp only [inputGist]
    cases i.target <;> rfl
  rw [gist, hinputs]
  cases b.next <;> rfl

variable (b : Block)

@[simp] theorem gist_head : b.gist.head = b.head.gist := by rw [gist_eq]

@[simp] theorem gist_inputs : b.gist.inputs = b.inputs.map inputGist := by rw [gist_eq]

@[simp] theorem gist_next : b.gist.next = b.next.map gist := by rw [gist_eq]

@[simp] theorem gist_target? (name : String) : b.gist.target? name = (b.target? name).map gist := by
  rw [target?, input?, gist_inputs, List.find?_map]
  have : ((fun i : Input Block ↦ i.name == name) ∘ inputGist) = (·.name == name) := by
    funext i
    simp
  rw [this, target?, input?]
  cases b.inputs.find? (·.name == name) <;> simp

theorem descendants_gist : b.gist.descendants = b.descendants.map gist := by
  induction b using Block.induct with
  | step b hinputs hnext =>
    have hbelow : (b.inputs.map inputGist).flatMap (fun i ↦ (i.target.map descendants).getD []) =
        (b.inputs.flatMap fun i ↦ (i.target.map descendants).getD []).map gist := by
      rw [List.flatMap_map, List.map_flatMap, List.flatMap_def, List.flatMap_def]
      refine congrArg List.flatten (List.map_congr_left fun i hi ↦ ?_)
      cases hc : i.target with
      | none => simp [hc]
      | some c => simpa [hc] using hinputs i hi c hc
    have hafter : ((b.next.map gist).map descendants).getD [] =
        ((b.next.map descendants).getD []).map gist := by
      cases hc : b.next with
      | none => rfl
      | some c => simpa using hnext c hc
    rw [descendants_eq, descendants_eq, gist_inputs, gist_next, hbelow, hafter]
    simp

@[simp] theorem nestedComments_gist : b.gist.nestedComments = b.nestedComments := by
  have hcomment : (fun c : Block ↦ c.head.comment?) ∘ gist = fun c ↦ c.head.comment? :=
    funext fun c ↦ (congrArg Head.comment? c.gist_head).trans c.head.gist_comment?
  rw [nestedComments, descendants_gist, List.filterMap_map, hcomment, nestedComments]

theorem inputComments_gist : b.gist.inputComments = b.inputComments := by
  rw [inputComments, gist_inputs, List.map_map, inputComments]
  refine congrArg String.join (List.map_congr_left fun i _ ↦ ?_)
  simp only [Function.comp_apply]
  cases hc : i.target with
  | none =>
    rw [inputGist_target, hc]
    cases (inputGist i).shape <;> cases i.shape <;> rfl
  | some c =>
    rw [inputGist_target, hc, inputGist_shape hc, Option.map_some]
    cases i.shape
    · rfl
    · simp

/-- The comments of a block belong to its gist. -/
@[simp] theorem comments_gist (width : Nat) : b.gist.comments width = b.comments width := by
  rw [comments, inputComments_gist, ownComment, gist_head, Head.gist_comment?, ← ownComment,
    ← comments]

theorem comparePosition_gist (c : Block) :
    b.gist.comparePosition c.gist = b.comparePosition c := by
  rw [comparePosition, gist_head, gist_head]
  rfl

end Block

/-! ## Compiling -/

namespace Compiler

variable (o : Options)

/-- An emitter sees no more of a block than of its gist. -/
theorem view_gist (c : Compiler) (e : Emitter) (b : Block) :
    (c.view e b.gist).Agrees (c.view e b) where
  manual := rfl
  kind := by simp [view]
  id := by simp [view]
  mutation := by simp [view]
  inputNames := by simp [view, Function.comp_def]
  field name := by simp [view, View.field]
  hasField name := by simp [view]
  oneBased := rfl
  indent := rfl

section Neighbours

variable {c : Compiler} {b : Block}

theorem value_gist (h : ∀ input t, b.target? input = some t →
    c.block t.gist false true = c.block t false true) : c.value b.gist = c.value b := by
  funext input outer
  rw [value, value, Block.gist_target?]
  cases ht : b.target? input with
  | none => rfl
  | some t => simp [h input t ht]

theorem chain_gist {b? : Option Block} (h : ∀ t, b? = some t →
    c.block t.gist false false = c.block t false false) :
    c.chain (b?.map Block.gist) = c.chain b? := by
  cases b? with
  | none => rfl
  | some t => simp [chain, h t rfl]

theorem finish_gist (h : c.chain (b.next.map Block.gist) = c.chain b.next) (alone plugged : Bool) :
    c.finish b.gist alone plugged = c.finish b alone plugged := by
  funext code
  simp only [finish, finishWith, Block.gist_next, h, Block.comments_gist]

end Neighbours

/-- A block is compiled like its gist. -/
theorem block_gist (b : Block) (alone plugged : Bool) :
    ({ options := o } : Compiler).block b.gist alone plugged =
      ({ options := o } : Compiler).block b alone plugged := by
  induction b using Block.induct_target generalizing alone plugged with
  | step b htargets hnext =>
    set c : Compiler := { options := o }
    have hvalue : c.value b.gist = c.value b :=
      value_gist fun input t ht ↦ htargets input t ht false true
    have hbody (input : String) : c.chain (b.gist.target? input) = c.chain (b.target? input) := by
      rw [Block.gist_target?]
      exact chain_gist fun t ht ↦ htargets input t ht false false
    have hfinish := finish_gist (chain_gist fun next h ↦ hnext next h false false)
    have hneighbours : c.neighbours b.gist = c.neighbours b := by
      simp only [neighbours, hvalue, hbody, hfinish]
    rw [block_eq, block_eq, hneighbours, hfinish, Block.gist_head, Head.gist_enabled,
      Head.gist_kind, Block.gist_next]
    cases b.head.enabled with
    | true =>
      cases he : c.emitter? b.head.kind with
      | none => rfl
      | some e =>
        simp only [if_true, Emitter.emit_congr he (view_gist c e b) fun _ ↦ rfl]
        refine congrArg _ (funext fun emission ↦ ?_)
        cases emission <;> rfl
    | false =>
      cases h : b.next with
      | none => rfl
      | some next => simp [hnext next h]

end Compiler

/-! ## Workspaces -/

namespace Workspace

/-- A workspace with the gist of its blocks. -/
def gist (w : Workspace) : Workspace := { w with topBlocks := w.topBlocks.map Block.gist }

theorem ordered_gist (w : Workspace) : w.gist.ordered = w.ordered.map Block.gist :=
  stableSort_map (fun a b ↦ by rw [Block.comparePosition_gist]) w.topBlocks

theorem start_gist (w : Workspace) : w.gist.start = w.start := by
  have hnames : w.gist.procedureNames = w.procedureNames := by
    rw [procedureNames, procedureNames, ordered_gist, List.filter_map, List.map_map]
    simp [Function.comp_def]
  simp only [start, hnames]
  rfl

end Workspace

namespace Compiler

/-- A workspace is compiled like its gist. -/
theorem program_gist (o : Options) (w : Workspace) :
    ({ options := o } : Compiler).program w.gist = ({ options := o } : Compiler).program w := by
  have htop (b : Block) : ({ options := o } : Compiler).topBlock b.gist =
      ({ options := o } : Compiler).topBlock b := by
    have hline (code : String) : ({ options := o } : Compiler).topLine b.gist.head code =
        ({ options := o } : Compiler).topLine b.head code := by
      simp only [topLine, Block.gist_head, Head.gist_kind, Head.gist_id]
    simp only [topBlock, block_gist, hline]
  have htops : ({ options := o } : Compiler).topBlocks w.gist =
      ({ options := o } : Compiler).topBlocks w := by
    have hcomp : ({ options := o } : Compiler).topBlock ∘ Block.gist =
        ({ options := o } : Compiler).topBlock := funext htop
    simp only [topBlocks, Workspace.ordered_gist, List.mapM_map, hcomp]
  rw [program, rawProgram, htops, Workspace.start_gist, ← rawProgram, ← program]

/-- Workspaces with the same gist are compiled to the same program, or refused for the same
reason. -/
theorem program_eq_of_gist_eq (o : Options) {w w' : Workspace} (h : w.gist = w'.gist) :
    ({ options := o } : Compiler).program w = ({ options := o } : Compiler).program w' := by
  rw [← program_gist, h, program_gist]

end Compiler

end Turtle

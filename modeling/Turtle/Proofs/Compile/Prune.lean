import Turtle.Proofs.Compile.Program
import Turtle.Proofs.Emitter.Agreement
import Turtle.Proofs.Workspace.Order

/-!
# Disabled blocks may be taken out

A workspace without comments is compiled to the same program when its disabled blocks are taken out.
Wherever a disabled block stands, the next block takes its place.  An input may also be left empty
instead, provided that no enabled block stands behind the disabled one: the compiler would find it
and, as it is a statement, refuse it where a value is expected.
-/

namespace Turtle

/-! ## Going well alike -/

/-- Two computations go well from the same states, and with the same results. -/
def PassM.Alike {α : Type} (m m' : PassM α) : Prop := ∀ p a q, m p = .ok a q ↔ m' p = .ok a q

namespace PassM.Alike

variable {α β : Type} {m m' : PassM α} {f f' : α → PassM β}

theorem refl (m : PassM α) : Alike m m := fun _ _ _ ↦ Iff.rfl

/-- Errors are not told apart. -/
theorem throw (e e' : CompileError) : Alike (throw e : PassM α) (throw e') := by
  intro p a q
  constructor <;> exact nofun

theorem bind (h : Alike m m') (hf : ∀ a, Alike (f a) (f' a)) : Alike (m >>= f) (m' >>= f') := by
  intro p b q
  constructor
  · intro hrun
    obtain ⟨a, p', hm, ha⟩ := of_bind_ok hrun
    rw [bind_ok ((h p a p').1 hm)]
    exact (hf a p' b q).1 ha
  · intro hrun
    obtain ⟨a, p', hm, ha⟩ := of_bind_ok hrun
    rw [bind_ok ((h p a p').2 hm)]
    exact (hf a p' b q).2 ha

end PassM.Alike

open PassM (Alike)

/-- Neighbours that go well alike. -/
structure Neighbours.Alike (n n' : Neighbours) : Prop where
  value : ∀ input outer, PassM.Alike (n.value input outer) (n'.value input outer)
  statements : ∀ input, PassM.Alike (n.statements input) (n'.statements input)
  finish : ∀ code, PassM.Alike (n.finish code) (n'.finish code)

namespace Recipe

variable {α : Type} {indent : String} {n n' : Neighbours}

theorem alike_respond (h : n.Alike n') (q : Request) :
    Alike (respond indent n q) (respond indent n' q) := by
  cases q with
  | value input outer => exact h.value input outer
  | body input => exact (h.statements input).bind fun _ ↦ .refl _
  | «variable» | procedure | helper => exact .refl _

theorem alike_run (h : n.Alike n') (r : Recipe α) : Alike (r.run indent n) (r.run indent n') := by
  induction r with
  | done => exact .refl _
  | fail => exact .refl _
  | ask q next ih => exact (alike_respond h q).bind ih
  | hoist name code next ih =>
    exact (h.finish code).bind fun whole ↦ (Alike.refl _).bind fun _ ↦ ih

end Recipe

/-! ## Pruning -/

namespace Block

variable {inherits : Shape → Bool} {b c p : Block}

/-- What stands in the place of a block when disabled blocks are taken out: the block, or else what
stands in the place of the next one.  Only in an input of a shape that is not inherited nothing takes
the place of a disabled block. -/
def prune (inherits : Shape → Bool) (b : Block) : Option Block :=
  let inputs := b.inputs.attach.map fun i ↦
    let target := match _h : i.1.target with
      | none => none
      | some c => if c.head.enabled || inherits i.1.shape then c.prune inherits else none
    { i.1 with target }
  let next := match _h : b.next with
    | none => none
    | some c => c.prune inherits
  if b.head.enabled then some { b with inputs, next } else next
termination_by sizeOf b
decreasing_by
  · exact sizeOf_target_of_mem i.2 _h
  · exact sizeOf_next _h

/-- An input with what stands in the place of its target. -/
def pruneInput (inherits : Shape → Bool) (i : Input Block) : Input Block :=
  { i with target := i.target.bind fun c ↦
      if c.head.enabled || inherits i.shape then c.prune inherits else none }

/-- A block with what stands in the places of what is connected to it. -/
def keep (inherits : Shape → Bool) (b : Block) : Block :=
  { b with
    inputs := b.inputs.map (pruneInput inherits)
    next := b.next.bind (prune inherits) }

theorem prune_eq (inherits : Shape → Bool) (b : Block) : b.prune inherits =
    if b.head.enabled then some (b.keep inherits) else b.next.bind (prune inherits) := by
  have hinputs : (b.inputs.attach.map fun i ↦ ({ i.1 with target := match _h : i.1.target with
      | none => none
      | some c => if c.head.enabled || inherits i.1.shape then c.prune inherits else none } :
        Input Block)) = b.inputs.map (pruneInput inherits) := by
    rw [List.map_subtype (g := pruneInput inherits), List.unattach_attach]
    intro i _
    rw [pruneInput]
    cases i.target <;> rfl
  rw [prune, hinputs, keep]
  cases b.next <;> rfl

theorem prune_of_enabled (h : b.head.enabled) : b.prune inherits = some (b.keep inherits) := by
  rw [prune_eq, if_pos h]

theorem prune_of_disabled (h : ¬ b.head.enabled) :
    b.prune inherits = b.next.bind (prune inherits) := by
  rw [prune_eq, if_neg h]

/-- What is left is the first enabled block. -/
theorem prune_cases (inherits : Shape → Bool) (b : Block) :
    b.firstEnabled = none ∧ b.prune inherits = none ∨
      ∃ a p, b.firstEnabled = some a ∧ b.prune inherits = some p ∧ p.head = a.head := by
  induction b using Block.induct with
  | step b _ hnext =>
    by_cases henabled : b.head.enabled
    · exact .inr ⟨b, _, firstEnabled_of_enabled henabled, prune_of_enabled henabled, rfl⟩
    · rw [firstEnabled_of_disabled henabled, prune_of_disabled henabled]
      cases h : b.next with
      | none => exact .inl ⟨rfl, rfl⟩
      | some next => exact hnext next h

theorem exists_firstEnabled_of_prune (h : b.prune inherits = some p) :
    ∃ a, b.firstEnabled = some a ∧ p.head = a.head := by
  rcases b.prune_cases inherits with ⟨-, hnone⟩ | ⟨a, p', ha, hp, hhead⟩
  · rw [hnone] at h
    cases h
  · rw [hp] at h
    cases h
    exact ⟨a, ha, hhead⟩

/-- A block that takes the place of a disabled one is the next block of some block behind it. -/
theorem exists_next_of_firstEnabled (hb : ¬ b.head.enabled) (h : b.firstEnabled = some c) :
    c ∈ b.strict ∧ ∃ d ∈ b.descendants, d.next = some c := by
  induction b using Block.induct with
  | step b _ hnext =>
    rw [firstEnabled_of_disabled hb] at h
    obtain ⟨next, hbnext, hc⟩ := Option.bind_eq_some_iff.1 h
    have hsub := subset_strict_of_next hbnext
    by_cases henabled : next.head.enabled
    · rw [firstEnabled_of_enabled henabled] at hc
      cases hc
      exact ⟨hsub (self_mem_descendants _), b, b.self_mem_descendants, hbnext⟩
    · obtain ⟨hmem, d, hd, hdnext⟩ := hnext next hbnext henabled hc
      exact ⟨hsub (strict_subset_descendants _ hmem), d,
        b.strict_subset_descendants (hsub hd), hdnext⟩

/-- No block is lost when the disabled blocks in the inputs of the block are taken out. -/
def LosesNone (inherits : Shape → Bool) (b : Block) : Prop :=
  ∀ i ∈ b.inputs, inherits i.shape = false →
    ∀ c ∈ i.target, ¬ c.head.enabled → c.firstEnabled = none

instance (inherits : Shape → Bool) (b : Block) : Decidable (b.LosesNone inherits) :=
  inferInstanceAs (Decidable (∀ i ∈ b.inputs, inherits i.shape = false →
    ∀ c ∈ i.target, ¬ c.head.enabled → c.firstEnabled = none))

theorem pruneInput_target (h : b.LosesNone inherits) {i : Input Block} (hi : i ∈ b.inputs) :
    (pruneInput inherits i).target = i.target.bind (prune inherits) := by
  rw [pruneInput]
  refine Option.bind_congr fun c hc ↦ ?_
  split
  · rfl
  · rename_i hlost
    obtain ⟨henabled, hshape⟩ := not_or.1 (mt Bool.or_eq_true_iff.2 hlost)
    have hnone := h i hi (Bool.eq_false_of_not_eq_true hshape) c hc henabled
    rcases c.prune_cases inherits with ⟨-, hprune⟩ | ⟨a, p, ha, -, -⟩
    · rw [hprune]
    · rw [hnone] at ha
      cases ha

theorem target?_keep (h : b.LosesNone inherits) (name : String) :
    (b.keep inherits).target? name = (b.target? name).bind (prune inherits) := by
  have hname : ((fun i : Input Block ↦ i.name == name) ∘ pruneInput inherits) =
      fun i : Input Block ↦ i.name == name := rfl
  rw [target?, input?, keep, List.find?_map, hname, target?, input?]
  cases hi : b.inputs.find? (·.name == name) with
  | none => rfl
  | some i => exact pruneInput_target h (List.mem_of_find?_eq_some hi)

/-- A pruned block is silent if the block is. -/
theorem IsSilent.prune (h : b.IsSilent) (hp : b.prune inherits = some p) : p.IsSilent := by
  induction b using Block.induct generalizing p with
  | step b hinputs hnext =>
    by_cases henabled : b.head.enabled
    · rw [prune_of_enabled henabled] at hp
      cases hp
      intro d hd
      rcases mem_descendants_iff.1 hd with rfl | hd
      · exact h.head
      · rcases mem_strict_iff.1 hd with ⟨j, hj, c, hc, hd⟩ | ⟨c, hc, hd⟩
        · obtain ⟨i, hi, rfl⟩ := List.mem_map.1 hj
          obtain ⟨t, ht, htc⟩ := Option.bind_eq_some_iff.1 hc
          split at htc
          · exact hinputs i hi t ht (h.input hi ht) htc d hd
          · cases htc
        · obtain ⟨next, hbnext, hc⟩ := Option.bind_eq_some_iff.1 hc
          exact hnext next hbnext (h.next hbnext) hc d hd
    · rw [prune_of_disabled henabled] at hp
      obtain ⟨next, hbnext, hp⟩ := Option.bind_eq_some_iff.1 hp
      exact hnext next hbnext (h.next hbnext) hp

/-- The block in the place of another one on the canvas. -/
def moveTo (b place : Block) : Block :=
  { b with head := { b.head with x := place.head.x, y := place.head.y } }

/-- What stands in the place of a top block. -/
def pruneTop (inherits : Shape → Bool) (b : Block) : Option Block :=
  (b.prune inherits).map (·.moveTo b)

theorem exists_firstEnabled_of_pruneTop (h : b.pruneTop inherits = some p) :
    ∃ a, b.firstEnabled = some a ∧ p.head = (a.moveTo b).head := by
  obtain ⟨q, hq, rfl⟩ := Option.map_eq_some_iff.1 h
  obtain ⟨a, ha, hhead⟩ := exists_firstEnabled_of_prune hq
  exact ⟨a, ha, by rw [moveTo, hhead, moveTo]⟩

theorem position_pruneTop (h : b.pruneTop inherits = some p) : p.position = b.position := by
  obtain ⟨q, -, rfl⟩ := Option.map_eq_some_iff.1 h
  rfl

theorem isPlaced_pruneTop (h : b.pruneTop inherits = some p) : p.IsPlaced ↔ b.IsPlaced := by
  obtain ⟨q, -, rfl⟩ := Option.map_eq_some_iff.1 h
  rfl

end Block

/-- A workspace without its disabled blocks. -/
def Workspace.prune (inherits : Shape → Bool) (w : Workspace) : Workspace :=
  { w with topBlocks := w.topBlocks.filterMap (Block.pruneTop inherits) }

namespace Compiler

variable {o : Options} {inherits : Shape → Bool} {b p : Block}

theorem alike_plug (kind kind' : String) (outer : Logo.Order) (code : Code) :
    Alike (plug kind outer code) (plug kind' outer code) := by
  cases code with
  | value => exact .refl _
  | statement code =>
    simp only [plug]
    split
    · exact .refl _
    · exact .throw _ _

theorem alike_link (kind kind' : String) (code : Code) :
    Alike (link kind code) (link kind' code) := by
  cases code with
  | value => exact .throw _ _
  | statement => exact .refl _

/-- What is compiled in the place of a block that may be missing. -/
def place (c : Compiler) (b? : Option Block) (plugged : Bool) : PassM Code :=
  b?.elim (pure (.statement "")) fun b ↦ c.block b false plugged

/-- A block in its place may be replaced by one that goes well alike, or by nothing. -/
theorem alike_chain {c : Compiler} {b? p? : Option Block}
    (h : Alike (c.place b? false) (c.place p? false)) : Alike (c.chain b?) (c.chain p?) := by
  have hplace (b? : Option Block) (kind : String) :
      Alike (c.chain b?) (c.place b? false >>= link kind) := by
    cases b? with
    | none => exact .refl _
    | some b => exact (Alike.refl _).bind fun _ ↦ alike_link _ _ _
  intro p a q
  rw [hplace b? "" p a q, hplace p? "" p a q]
  exact h.bind (fun _ ↦ .refl _) p a q

theorem alike_value {c : Compiler} {input : String} {outer : Logo.Order}
    (h : Alike (c.place (b.target? input) true) (c.place (p.target? input) true)) :
    Alike (c.value b input outer) (c.value p input outer) := by
  have hplace (b : Block) (kind : String) :
      Alike (c.value b input outer) (c.place (b.target? input) true >>= plug kind outer) := by
    rw [value]
    cases b.target? input with
    | none => exact .refl _
    | some b => exact (Alike.refl _).bind fun _ ↦ alike_plug _ _ _ _
  intro s a q
  rw [hplace b "" s a q, hplace p "" s a q]
  exact h.bind (fun _ ↦ .refl _) s a q

theorem alike_settle {c : Compiler} {e : Emitter} {head : Head} {f f' : String → PassM String}
    (h : ∀ code, Alike (f code) (f' code)) (emission : Emission) :
    Alike (c.settle e head f emission) (c.settle e head f' emission) := by
  cases emission with
  | value code order =>
    simp only [settle]
    split
    · exact (h code).bind fun _ ↦ .refl _
    · exact .refl _
  | statement code => exact (h _).bind fun _ ↦ .refl _
  | hoisted => exact .refl _

theorem alike_finish {c : Compiler} (hb : b.IsSilent) (hp : p.IsSilent)
    (h : Alike (c.chain b.next) (c.chain p.next)) (alone plugged : Bool) (code : String) :
    Alike (c.finish b alone plugged code) (c.finish p alone plugged code) := by
  rw [finish, finish, finishWith, finishWith, hb.comments, hp.comments]
  cases alone with
  | true => exact .refl _
  | false => exact h.bind fun _ ↦ .refl _

/-- Blocks that look the same to their emitter, with neighbours that go well alike. -/
theorem alike_block_of_neighbours {plugged : Bool} (hb : b.head.enabled) (hhead : p.head = b.head)
    (hinputs : p.inputs.map (·.name) = b.inputs.map (·.name)) (hsilent : b.IsSilent)
    (hsilent' : p.IsSilent)
    (hvalue : ∀ input outer, Alike (({ options := o } : Compiler).value b input outer)
      (({ options := o } : Compiler).value p input outer))
    (hbody : ∀ input, Alike (({ options := o } : Compiler).chain (b.target? input))
      (({ options := o } : Compiler).chain (p.target? input)))
    (hnext : Alike (({ options := o } : Compiler).chain b.next)
      (({ options := o } : Compiler).chain p.next)) :
    Alike (({ options := o } : Compiler).block b false plugged)
      (({ options := o } : Compiler).block p false plugged) := by
  have hfinish (alone plugged : Bool) := alike_finish hsilent hsilent' hnext alone plugged
  rw [block_eq, block_eq, hhead, if_pos hb, if_pos hb]
  cases he : ({ options := o } : Compiler).emitter? b.head.kind with
  | none => exact .refl _
  | some e =>
    have hview : ({ options := o } : Compiler).view e p = ({ options := o } : Compiler).view e b := by
      rw [view, view, hhead, hinputs]
    simp only [hview]
    exact (Recipe.alike_run ⟨hvalue, hbody, hfinish false false⟩ _).bind
      (alike_settle (hfinish false plugged))

/-- What is left in the place of a block goes well like the block. -/
theorem alike_prune (hsilent : b.IsSilent) (hnone : ∀ d ∈ b.descendants, d.LosesNone inherits)
    (plugged : Bool) :
    Alike (({ options := o } : Compiler).block b false plugged)
      (({ options := o } : Compiler).place (b.prune inherits) plugged) := by
  induction b using Block.induct_target generalizing plugged with
  | step b htargets hnext =>
    -- A place that may be empty, from the same fact about what stands there.
    have hplace (b? : Option Block) (plugged : Bool) (h : ∀ t, b? = some t →
        Alike (({ options := o } : Compiler).block t false plugged)
          (({ options := o } : Compiler).place (t.prune inherits) plugged)) :
        Alike (({ options := o } : Compiler).place b? plugged)
          (({ options := o } : Compiler).place (b?.bind (Block.prune inherits)) plugged) := by
      cases b? with
      | none => exact .refl _
      | some t => exact h t rfl
    have hbehind (plugged : Bool) := hplace b.next plugged fun next h ↦
      hnext next h (hsilent.next h) (Block.forall_of_next hnone h) plugged
    by_cases henabled : b.head.enabled
    · have hprune : b.prune inherits = some (b.keep inherits) := Block.prune_of_enabled henabled
      have hsilent' := hsilent.prune hprune
      rw [hprune]
      have hbelow (input : String) (plugged : Bool) :
          Alike (({ options := o } : Compiler).place (b.target? input) plugged)
            (({ options := o } : Compiler).place ((b.keep inherits).target? input) plugged) := by
        rw [Block.target?_keep (hnone b b.self_mem_descendants)]
        apply hplace
        intro t ht
        exact htargets input t ht (hsilent.target ht) (Block.forall_of_target hnone ht) plugged
      refine alike_block_of_neighbours henabled rfl ?_ hsilent hsilent' ?_ ?_ ?_
      · rw [Block.keep, List.map_map]
        rfl
      · intro input outer
        exact alike_value (hbelow input true)
      · intro input
        exact alike_chain (hbelow input false)
      · exact alike_chain (hbehind false)
    · rw [block_eq, if_neg henabled, if_neg Bool.false_ne_true, Block.prune_of_disabled henabled]
      have hbehind := hbehind plugged
      cases h : b.next with
      | none => exact .refl _
      | some next =>
        rw [h] at hbehind
        exact hbehind

/-! ## Top blocks -/

/-- Where a block lies does not matter to how it is compiled. -/
theorem block_moveTo (b place : Block) (alone plugged : Bool) :
    ({ options := o } : Compiler).block (b.moveTo place) alone plugged =
      ({ options := o } : Compiler).block b alone plugged := by
  have hneighbours : ({ options := o } : Compiler).neighbours (b.moveTo place) =
      ({ options := o } : Compiler).neighbours b := rfl
  have hfinish : ({ options := o } : Compiler).finish (b.moveTo place) alone plugged =
      ({ options := o } : Compiler).finish b alone plugged := rfl
  have hkind : (b.moveTo place).head.kind = b.head.kind := rfl
  have henabled : (b.moveTo place).head.enabled = b.head.enabled := rfl
  have hnext : (b.moveTo place).next = b.next := rfl
  rw [block_eq, block_eq, hneighbours, hfinish, hkind, henabled, hnext]
  cases he : ({ options := o } : Compiler).emitter? b.head.kind with
  | none => rfl
  | some e =>
    have hagrees : (({ options := o } : Compiler).view e (b.moveTo place)).Agrees
        (({ options := o } : Compiler).view e b) :=
      ⟨rfl, rfl, rfl, rfl, rfl, fun _ ↦ rfl, fun _ ↦ rfl, rfl, rfl⟩
    have hsettle : ({ options := o } : Compiler).settle e (b.moveTo place).head =
        ({ options := o } : Compiler).settle e b.head := by
      funext finish emission
      cases emission <;> rfl
    simp only [Emitter.emit_congr he hagrees fun _ ↦ rfl, hsettle]

/-- The code of a top block that is no expression is left as it is. -/
theorem topLine_of_shape {head : Head} (h : Emitter.shape? head.kind ≠ some .value) (code : String) :
    ({ options := o } : Compiler).topLine head code = code := by
  rw [topLine]
  split
  · rename_i hcode
    exact (beq_iff_eq.1 hcode).symm
  · split
    · rename_i e he
      rw [if_neg]
      intro hshape
      apply h
      rw [Emitter.shape?_of_standard? he, hshape]
    · rfl

/-- The part of a program that a top block leaves, from its code. -/
def topPart (c : Compiler) (head : Head) : Code → PassM String
  | .statement code | .value code _ => pure (c.topLine head code)

theorem topBlock_eq_place (c : Compiler) (b : Block) :
    c.topBlock b = c.place (some b) false >>= c.topPart b.head := by
  refine congrArg (c.block b false false >>= ·) (funext fun code ↦ ?_)
  cases code <;> rfl

section

variable (hsilent : b.IsSilent) (hnone : ∀ d ∈ b.descendants, d.LosesNone inherits)
include hsilent hnone

theorem alike_topBlock_of_none (h : b.pruneTop inherits = none) :
    Alike (({ options := o } : Compiler).topBlock b) (pure "") := by
  have hprune := alike_prune (o := o) hsilent hnone false
  rw [Option.map_eq_none_iff.1 h] at hprune
  rw [topBlock_eq_place]
  exact hprune.bind fun _ ↦ .refl (({ options := o } : Compiler).topPart b.head _)

/-- What stands in the place of a top block leaves the same line. -/
theorem alike_topBlock (hnext : ∀ d ∈ b.descendants, ∀ next ∈ d.next,
      Emitter.shape? d.head.kind ≠ some .value ∧ Emitter.shape? next.head.kind ≠ some .value)
    (h : b.pruneTop inherits = some p) :
    Alike (({ options := o } : Compiler).topBlock b) (({ options := o } : Compiler).topBlock p) := by
  obtain ⟨q, hq, rfl⟩ := Option.map_eq_some_iff.1 h
  have hprune := alike_prune (o := o) hsilent hnone false
  rw [hq] at hprune
  have hline : ({ options := o } : Compiler).topLine (q.moveTo b).head =
      ({ options := o } : Compiler).topLine b.head := by
    obtain ⟨a, ha, hhead⟩ := Block.exists_firstEnabled_of_pruneTop h
    have hkind : (q.moveTo b).head.kind = a.head.kind := by
      rw [hhead]
      rfl
    have hid : (q.moveTo b).head.id = a.head.id := by
      rw [hhead]
      rfl
    funext code
    by_cases henabled : b.head.enabled
    · rw [Block.firstEnabled_of_enabled henabled] at ha
      cases ha
      simp only [topLine, hkind, hid]
    · obtain ⟨-, d, hd, hda⟩ := Block.exists_next_of_firstEnabled henabled ha
      have hb : ∃ next, b.next = some next := by
        rw [Block.firstEnabled_of_disabled henabled] at ha
        obtain ⟨next, hbnext, -⟩ := Option.bind_eq_some_iff.1 ha
        exact ⟨next, hbnext⟩
      obtain ⟨next, hbnext⟩ := hb
      rw [topLine_of_shape (hnext b b.self_mem_descendants next hbnext).1,
        topLine_of_shape (hkind ▸ (hnext d hd a hda).2)]
  rw [topBlock_eq_place, topBlock_eq_place]
  refine Alike.bind ?_ fun code ↦ ?_
  · rw [place, Option.elim_some, place, Option.elim_some, block_moveTo]
    exact hprune
  · cases code <;> simp only [topPart, hline] <;> exact .refl _

end

/-- The parts of a program that some top blocks leave. -/
def topParts (c : Compiler) (blocks : List Block) : PassM (List String) :=
  (·.filter (· != "")) <$> blocks.mapM c.topBlock

theorem topParts_cons (c : Compiler) (b : Block) (blocks : List Block) :
    c.topParts (b :: blocks) = c.topBlock b >>= fun line ↦ c.topParts blocks >>= fun rest ↦
      pure (if line != "" then line :: rest else rest) := by
  simp only [topParts, List.mapM_cons, map_eq_pure_bind, bind_assoc, pure_bind, List.filter_cons]

theorem alike_topParts {blocks : List Block}
    (h : ∀ b ∈ blocks, match b.pruneTop inherits with
      | none => Alike (({ options := o } : Compiler).topBlock b) (pure "")
      | some p => Alike (({ options := o } : Compiler).topBlock b)
        (({ options := o } : Compiler).topBlock p)) :
    Alike (({ options := o } : Compiler).topParts blocks)
      (({ options := o } : Compiler).topParts (blocks.filterMap (Block.pruneTop inherits))) := by
  induction blocks with
  | nil => exact .refl _
  | cons b blocks ih =>
    have hb := h b List.mem_cons_self
    have ih := ih fun b hb ↦ h b (List.mem_cons_of_mem _ hb)
    rw [topParts_cons]
    cases hp : b.pruneTop inherits with
    | none =>
      rw [hp] at hb
      rw [List.filterMap_cons_none hp]
      intro s parts q
      rw [hb.bind (fun line ↦ .refl _) s parts q]
      change (({ options := o } : Compiler).topParts blocks >>= pure) s = _ ↔ _
      rw [bind_pure]
      exact ih s parts q
    | some p =>
      rw [hp] at hb
      rw [List.filterMap_cons_some hp, topParts_cons]
      exact hb.bind fun line ↦ ih.bind fun rest ↦ .refl _

end Compiler

/-! ## Workspaces -/

namespace Workspace

variable {inherits : Shape → Bool} {w : Workspace}

/-- A workspace without comments, whose blocks lie somewhere, whose expressions are not in chains, and
whose procedures are defined by enabled top blocks. -/
structure IsPrunable (w : Workspace) : Prop where
  silent : ∀ b ∈ w.allBlocks, b.head.comment? = none
  placed : ∀ b ∈ w.topBlocks, b.IsPlaced
  next : ∀ b ∈ w.allBlocks, ∀ next ∈ b.next,
    Emitter.shape? b.head.kind ≠ some .value ∧ Emitter.shape? next.head.kind ≠ some .value
  top : ∀ b ∈ w.topBlocks, ∀ d ∈ b.strict, ¬ d.head.isDefinition
  definition : ∀ b ∈ w.topBlocks, b.head.isDefinition → b.head.enabled

theorem ordered_prune (h : ∀ b ∈ w.topBlocks, b.IsPlaced) :
    (w.prune inherits).ordered = w.ordered.filterMap (Block.pruneTop inherits) := by
  have hplaced : ∀ p ∈ (w.prune inherits).topBlocks, p.IsPlaced := by
    intro p hp
    obtain ⟨b, hb, hbp⟩ := List.mem_filterMap.1 hp
    exact (Block.isPlaced_pruneTop hbp).2 (h b hb)
  rw [ordered_eq h, ordered_eq hplaced, prune,
    stableSort_filterMap fun _ _ h ↦ Block.position_pruneTop h]

/-- A top block that defines a procedure stays, and no other one comes to define one. -/
theorem definition_pruneTop (h : w.IsPrunable) {b p : Block} (hb : b ∈ w.topBlocks)
    (hp : b.pruneTop inherits = some p) : p.head.isDefinition = b.head.isDefinition ∧
      (b.head.isDefinition → p.head.field "NAME" = b.head.field "NAME") := by
  obtain ⟨a, ha, hhead⟩ := Block.exists_firstEnabled_of_pruneTop hp
  rw [hhead]
  by_cases henabled : b.head.enabled
  · rw [Block.firstEnabled_of_enabled henabled] at ha
    cases ha
    exact ⟨rfl, fun _ ↦ rfl⟩
  · have hb' : ¬ b.head.isDefinition := mt (h.definition b hb) henabled
    have ha' := h.top b hb a (Block.exists_next_of_firstEnabled henabled ha).1
    refine ⟨?_, fun hdefinition ↦ absurd hdefinition hb'⟩
    rw [Bool.eq_false_of_not_eq_true hb']
    exact Bool.eq_false_of_not_eq_true ha'

theorem not_definition_of_pruneTop (h : w.IsPrunable) {b : Block} (hb : b ∈ w.topBlocks)
    (hp : b.pruneTop inherits = none) : ¬ b.head.isDefinition := by
  intro hdefinition
  rw [Block.pruneTop, Block.prune_of_enabled (h.definition b hb hdefinition)] at hp
  cases hp

/-- The same procedures are defined, in the same order. -/
theorem procedureNames_prune (h : w.IsPrunable) :
    (w.prune inherits).procedureNames = w.procedureNames := by
  have htop : ∀ b ∈ w.ordered, b ∈ w.topBlocks := fun b ↦ mem_ordered.1
  rw [procedureNames, procedureNames, ordered_prune h.placed]
  generalize w.ordered = blocks at htop ⊢
  induction blocks with
  | nil => rfl
  | cons b blocks ih =>
    obtain ⟨hb, htop⟩ := List.forall_mem_cons.1 htop
    have ih := ih htop
    cases hp : b.pruneTop inherits with
    | none =>
      rw [List.filterMap_cons_none hp, ih,
        List.filter_cons, if_neg (not_definition_of_pruneTop h hb hp)]
    | some p =>
      obtain ⟨hdefinition, hname⟩ := definition_pruneTop h hb hp
      rw [List.filterMap_cons_some hp, List.filter_cons, List.filter_cons, hdefinition]
      split
      · rename_i hb
        rw [List.map_cons, List.map_cons, hname hb, ih]
      · exact ih

theorem start_prune (h : w.IsPrunable) : (w.prune inherits).start = w.start := by
  rw [start, start, procedureNames_prune h]
  rfl

end Workspace

namespace Compiler

variable {o : Options} {inherits : Shape → Bool} {w : Workspace}

/-- A workspace goes well exactly if what is left of it without its disabled blocks does, and it is
compiled to the same program. -/
theorem program_prune_iff (h : w.IsPrunable) (hnone : ∀ b ∈ w.allBlocks, b.LosesNone inherits)
    (text : String) : ({ options := o } : Compiler).program w = .ok text ↔
      ({ options := o } : Compiler).program (w.prune inherits) = .ok text := by
  have hlines : Alike (({ options := o } : Compiler).topBlocks w)
      (({ options := o } : Compiler).topBlocks (w.prune inherits)) := by
    change Alike (({ options := o } : Compiler).topParts w.ordered)
      (({ options := o } : Compiler).topParts (w.prune inherits).ordered)
    rw [Workspace.ordered_prune h.placed]
    refine alike_topParts fun b hb ↦ ?_
    have hall (d : Block) (hd : d ∈ b.descendants) : d ∈ w.allBlocks :=
      List.mem_flatMap.2 ⟨b, hb, hd⟩
    have hsilent : b.IsSilent := fun d hd ↦ h.silent d (hall d hd)
    split
    · rename_i hp
      exact alike_topBlock_of_none hsilent (fun d hd ↦ hnone d (hall d hd)) hp
    · rename_i p hp
      exact alike_topBlock hsilent (fun d hd ↦ hnone d (hall d hd))
        (fun d hd ↦ h.next d (hall d hd)) hp
  rw [program_ok_iff, program_ok_iff, Workspace.start_prune h]
  exact exists_congr fun parts ↦ exists_congr fun p ↦ and_congr_left fun _ ↦ hlines _ _ _

end Compiler

namespace Block

/-- A statement that moves the pen. -/
def pen (id op : String) : Block := (ofKind "logo_pen" id).withField "OP" (.text op)

/-- A disabled statement with an enabled one behind it. -/
def skipped (id : String) : Block := ((pen id "pu").withNext (pen id "pd")).disabled

/-- A statement that prints what is connected to it. -/
def printingOf (id : String) (target : Option Block) : Block :=
  (ofKind "text_print" id).withInput "TEXT" .value target

/-- A loop around a disabled statement. -/
def skipping : Block := (ofKind "controls_repeat_ext" "l").withInput "DO" .statement
  (some (skipped "a"))

/-- A disabled statement and one that prints what is disabled, with a disabled one behind it. -/
def printingNone : Block :=
  let noText := (ofKind "text" "t").disabled
  { (pen "b" "pu").disabled with
    next := some ((printingOf "p" (some noText)).withNext (pen "c" "pu").disabled) }

end Block

open Block in
/-- Disabled blocks at the top, in a statement input, behind a statement and in a value input.  The
first top block lies below the second one. -/
def skippers : Workspace where
  topBlocks := [
    printingNone.moveTo { head := { kind := "", y := some (.finite false 1) } },
    skipping.moveTo { head := { kind := "", y := some (.finite false 0) } }]

theorem isPrunable_skippers : skippers.IsPrunable where
  silent := by decide +kernel
  placed := by decide +kernel
  next := by decide +kernel
  top := by decide +kernel
  definition := by decide +kernel

theorem Compiler.program_prune_skippers :
    ({} : Compiler).program (skippers.prune (· == .statement)) =
      .ok "repeat 0 [\n  pd\n]\n\npr \"\n" := by
  have hnone : ∀ b ∈ skippers.allBlocks, b.LosesNone (· == .statement) := by decide +kernel
  have hprogram : ({} : Compiler).program skippers = .ok "repeat 0 [\n  pd\n]\n\npr \"\n" := by
    decide +kernel
  exact (Compiler.program_prune_iff isPrunable_skippers hnone _).1 hprogram

open Block in
/-- An input for a value with a disabled statement, and an enabled one behind it. -/
def detached : Workspace := { topBlocks := [printingOf "p" (some (skipped "a"))] }

/-- The input is not empty for the compiler, but it is once disabled blocks in inputs for values are
taken out. -/
theorem Compiler.program_prune_detached : detached.IsPrunable ∧
    ({} : Compiler).program detached = .error (.expectedValue "logo_pen") ∧
    ({} : Compiler).program (detached.prune (· == .statement)) = .ok "pr \"\n" := by
  refine ⟨?_, by decide +kernel, by decide +kernel⟩
  constructor <;> decide +kernel

end Turtle

import Turtle.Proofs.Compile.Outcome
import Turtle.Proofs.Compile.Slots
import Turtle.Proofs.Compile.Transparent
import Turtle.Proofs.Emitter.Blame

/-!
# Errors and their causes

Whatever error a pass ends in, there is an enabled block in the workspace to which it is due: a block
of an unknown kind, a block that asks for what it cannot have, or a block that holds another one in a
place for the other shape.  So a workspace without such a block always has a program, whatever order
its top blocks are read in.  What cannot be had includes room: a block that records too many elements
asks for more of it than there is, and that is a panic.
-/

namespace Turtle

open Logo (Order)

/-! ## Causes -/

namespace Block

/-- The first enabled block from a block on, which is compiled in its place, is of a shape. -/
def ActsAs (b : Block) (shape : Shape) : Prop :=
  ∃ a, b.firstEnabled = some a ∧ Emitter.shape? a.head.kind = some shape

/-- A block is connected to an input of another one that holds statements, or a value. -/
def Holds (b : Block) (shape : Shape) (t : Block) : Prop :=
  ∃ input, b.target? input = some t ∧ Emitter.inputShape b.head.kind input = shape

/-- The errors that are due to a block. -/
inductive Cause (b : Block) : CompileError → Prop
  /-- There is no such kind. -/
  | unknown (h : Emitter.standard? b.head.kind = none) : Cause b (.unknownKind b.head.kind)
  /-- It asks for what it cannot have. -/
  | refused {e : CompileError} (h : b.head.Refuses e) : Cause b e
  /-- It holds a statement for a value. -/
  | plugged {t : Block} (ht : b.Holds .value t) (hacts : t.ActsAs .statement) :
    Cause b (.expectedValue t.head.kind)
  /-- It holds a value for a statement. -/
  | held {t : Block} (ht : b.Holds .statement t) (hacts : t.ActsAs .value) :
    Cause b (.expectedStatement t.head.kind)
  /-- It is followed by a value. -/
  | followed {t : Block} (ht : b.next = some t) (hacts : t.ActsAs .value) :
    Cause b (.expectedStatement t.head.kind)

end Block

/-- An error is due to an enabled block of the workspace. -/
def Workspace.Cause (w : Workspace) (e : CompileError) : Prop :=
  ∃ b ∈ w.allBlocks, b.head.enabled ∧ b.Cause e

/-! ## Computations -/

/-- A computation that ends in a result with `Q` or in an error with `E`, from any state. -/
abbrev PassM.EndsIn {α : Type} (Q : α → Prop) (E : CompileError → Prop) (m : PassM α) : Prop :=
  m.Ends (fun _ ↦ True) Q E

open PassM (Ends EndsIn)

variable {E : CompileError → Prop}

namespace Recipe

variable {α : Type} {indent : String} {n : Neighbours} {S : String → Shape}

theorem endsIn_respond
    (hvalue : ∀ input outer, S input = .value →
      (n.value input outer).EndsIn (fun _ ↦ True) E)
    (hstatements : ∀ input, S input = .statement →
      (n.statements input).EndsIn (fun _ ↦ True) E) {q : Request} (hq : q.Fits S) :
    (respond indent n q).EndsIn (fun _ ↦ True) E := by
  cases q with
  | value input outer => exact hvalue input outer hq
  | body input =>
    apply (hstatements input hq).bind
    intro code _
    exact Ends.pure trivial
  | «variable» nameOrId => exact Ends.modifyGet fun _ _ ↦ ⟨trivial, trivial⟩
  | procedure name => exact Ends.modifyGet fun _ _ ↦ ⟨trivial, trivial⟩
  | helper key lines => exact Ends.modifyGet fun _ _ ↦ ⟨trivial, trivial⟩

/-- Following a recipe ends in what it yields, in an error of its own, or in one of its neighbours. -/
theorem endsIn_run
    (hvalue : ∀ input outer, S input = .value →
      (n.value input outer).EndsIn (fun _ ↦ True) E)
    (hstatements : ∀ input, S input = .statement →
      (n.statements input).EndsIn (fun _ ↦ True) E)
    (hfinish : ∀ code, (n.finish code).EndsIn (fun _ ↦ True) E) {r : Recipe α}
    (h : r.Blames S E) : (r.run indent n).EndsIn (fun a ↦ ∃ log, r.Yields log a) E := by
  induction r with
  | done a => exact Ends.pure ⟨[], .done a⟩
  | fail e => exact Ends.throw h
  | ask q next ih =>
    apply (endsIn_respond hvalue hstatements h.1).bind
    intro answer _
    apply (ih answer (h.2 answer)).mono
    rintro a ⟨log, hyields⟩
    exact ⟨_, hyields.ask⟩
  | hoist name code next ih =>
    apply (hfinish code).bind
    intro whole _
    apply (Ends.modify fun _ _ ↦ trivial).bind
    intro _ _
    apply (ih h).mono
    rintro a ⟨log, hyields⟩
    exact ⟨.hoisted name code whole :: log, hyields.hoist⟩

end Recipe

/-- Code of a block tells the shape of the block that is compiled in its place, unless it is empty. -/
def Code.Suits (b : Block) : Code → Prop
  | statement code => code ≠ "" → b.ActsAs .statement
  | value _ _ => b.ActsAs .value

namespace Compiler

variable {o : Options} {b t : Block}

theorem endsIn_plug (outer : Order) {code : Code} (h : code.Suits t)
    (hcause : t.ActsAs .statement → E (.expectedValue t.head.kind)) :
    (plug t.head.kind outer code).EndsIn (fun _ ↦ True) E := by
  cases code with
  | value code inner => exact Ends.pure trivial
  | statement code =>
    rw [plug]
    split
    case isTrue => exact Ends.pure trivial
    case isFalse hne => exact Ends.throw (hcause (h fun heq ↦ hne (beq_iff_eq.2 heq)))

theorem endsIn_link {code : Code} (h : code.Suits t)
    (hcause : t.ActsAs .value → E (.expectedStatement t.head.kind)) :
    (link t.head.kind code).EndsIn (fun _ ↦ True) E := by
  cases code with
  | value code inner => exact Ends.throw (hcause h)
  | statement code => exact Ends.pure trivial

/-- What an emitter leaves suits its block. -/
theorem endsIn_settle {c : Compiler} {e : Emitter} (henabled : b.head.enabled)
    (he : Emitter.standard? b.head.kind = some e) {finish : String → PassM String}
    (hfinish : ∀ code, (finish code).EndsIn (fun _ ↦ True) E) {v : View} {log : List Exchange}
    {emission : Emission} (hyields : (e.emit v).Yields log emission) :
    (c.settle e b.head finish emission).EndsIn (Code.Suits b) E := by
  have hshape := Emitter.shape_eq_value_iff he hyields
  have hacts : b.ActsAs e.shape :=
    ⟨b, Block.firstEnabled_of_enabled henabled, Emitter.shape?_of_standard? he⟩
  cases emission with
  | value code order =>
    have hvalue := hshape.2 ⟨code, order, rfl⟩
    rw [settle, if_pos hvalue]
    apply (hfinish code).bind
    intro whole _
    apply Ends.pure
    rw [hvalue] at hacts
    exact hacts
  | statement code =>
    apply (hfinish _).bind
    intro whole _
    apply Ends.pure
    intro _
    cases heq : e.shape with
    | statement =>
      rw [heq] at hacts
      exact hacts
    | value =>
      obtain ⟨_, _, hcode⟩ := hshape.1 heq
      cases hcode
  | hoisted =>
    apply Ends.pure
    intro hne
    exact absurd rfl hne

/-- What suits the block behind a disabled block suits the block, which is passed over. -/
theorem suits_of_disabled {next : Block} (hdisabled : ¬ b.head.enabled)
    (hnext : b.next = some next) {code : Code} (h : code.Suits next) : code.Suits b := by
  have hacts (shape : Shape) (hacts : next.ActsAs shape) : b.ActsAs shape := by
    obtain ⟨a, ha, hshape⟩ := hacts
    refine ⟨a, ?_, hshape⟩
    rw [Block.firstEnabled_of_disabled hdisabled, hnext, Option.bind_some, ha]
  cases code with
  | value code order => exact hacts .value h
  | statement code =>
    intro hne
    exact hacts .statement (h hne)

section Neighbours

variable {c : Compiler} {input : String}

theorem endsIn_chain {t : Option Block}
    (hrun : ∀ d, t = some d → (c.block d false false).EndsIn (Code.Suits d) E)
    (hcause : ∀ d, t = some d → d.ActsAs .value → E (.expectedStatement d.head.kind)) :
    (c.chain t).EndsIn (fun _ ↦ True) E := by
  cases t with
  | none => exact Ends.pure trivial
  | some d =>
    apply (hrun d rfl).bind
    intro code hsuits
    exact endsIn_link hsuits (hcause d rfl)

theorem endsIn_value (outer : Order)
    (hrun : ∀ t, b.target? input = some t → (c.block t false true).EndsIn (Code.Suits t) E)
    (hcause : ∀ t, b.target? input = some t → t.ActsAs .statement →
      E (.expectedValue t.head.kind)) :
    (c.value b input outer).EndsIn (fun _ ↦ True) E := by
  rw [value]
  split
  · exact Ends.pure trivial
  · rename_i t ht
    apply (hrun t ht).bind
    intro code hsuits
    exact endsIn_plug outer hsuits (hcause t ht)

end Neighbours

/-- By induction on the block: an error is due to an enabled block that is the block itself or stands
below or behind it. -/
theorem endsIn_block (hE : ∀ d ∈ b.descendants, d.head.enabled → ∀ e, d.Cause e → E e)
    (plugged : Bool) :
    (({ options := o } : Compiler).block b false plugged).EndsIn (Code.Suits b) E := by
  induction b using Block.induct_target generalizing plugged with
  | step b htargets hnext =>
    set c : Compiler := { options := o }
    have hbehind {next : Block} (h : b.next = some next) (plugged : Bool) :
        (c.block next false plugged).EndsIn (Code.Suits next) E :=
      hnext next h (Block.forall_of_next hE h) plugged
    have htarget {input : String} {t : Block} (ht : b.target? input = some t) (plugged : Bool) :
        (c.block t false plugged).EndsIn (Code.Suits t) E :=
      htargets input t ht (Block.forall_of_target hE ht) plugged
    rw [block_eq]
    split
    case isFalse hdisabled =>
      rw [if_neg Bool.false_ne_true]
      cases h : b.next with
      | none =>
        apply Ends.pure
        intro hne
        exact absurd rfl hne
      | some next => exact (hbehind h plugged).mono fun _ ↦ suits_of_disabled hdisabled h
    case isTrue henabled =>
      have hcause (e : CompileError) (h : b.Cause e) : E e :=
        hE b b.self_mem_descendants henabled e h
      have hfinish (plugged : Bool) (code : String) :
          (c.finish b false plugged code).EndsIn (fun _ ↦ True) E := by
        have hchain : (c.chain b.next).EndsIn (fun _ ↦ True) E :=
          endsIn_chain (fun d hd ↦ hbehind hd false) fun d hd hacts ↦ hcause _ (.followed hd hacts)
        apply hchain.bind
        intro rest _
        exact Ends.pure trivial
      split
      · rename_i he
        exact Ends.throw (hcause _ (.unknown he))
      · rename_i e he
        have hblames := Emitter.blamesOnly_standard he (c.view e b) rfl
        have hrun : ((e.emit (c.view e b)).run c.options.indent (c.neighbours b)).EndsIn
            (fun emission ↦ ∃ log, (e.emit (c.view e b)).Yields log emission) E := by
          apply Recipe.endsIn_run _ _ (hfinish false)
            (hblames.mono fun e h ↦ hcause e (.refused h))
          · intro input outer hinput
            exact endsIn_value outer (fun t ht ↦ htarget ht true)
              fun t ht hacts ↦ hcause _ (.plugged ⟨input, ht, hinput⟩ hacts)
          · intro input hinput
            exact endsIn_chain (fun d hd ↦ htarget hd false)
              fun d hd hacts ↦ hcause _ (.held ⟨input, hd, hinput⟩ hacts)
        apply hrun.bind
        rintro emission ⟨log, hyields⟩
        exact endsIn_settle henabled he (hfinish plugged) hyields

/-- A block of more elements than there can be room for is not compiled. -/
theorem block_of_not_hasRoom (henabled : b.head.enabled) (hkind : (gatherer? b.head.kind).isSome)
    (hroom : ¬ b.HasRoom) (alone plugged : Bool) :
    ({ options := o } : Compiler).block b alone plugged = throw .capacityOverflow := by
  obtain ⟨primitive, hprimitive⟩ := Option.isSome_iff_exists.1 hkind
  rw [block_written _ henabled (standard?_gather hprimitive),
    Emitter.gather_of_lt _ _ (Nat.lt_of_not_le (mt (itemCount_le_capacity_iff ..).1 hroom))]
  rfl

/-- There is no program if there is not enough room for a top block. -/
theorem programIn_ne_ok_of_not_hasRoom {w : Workspace} {order : List Block} (hb : b ∈ order)
    (henabled : b.head.enabled) (hkind : (gatherer? b.head.kind).isSome) (hroom : ¬ b.HasRoom)
    (text : String) : ({ options := o } : Compiler).programIn w order ≠ .ok text := by
  intro htext
  obtain ⟨start, parts, p, hrun⟩ := of_programIn_ok htext
  obtain ⟨i, hi⟩ := List.mem_iff_getElem?.1 hb
  obtain ⟨-, states, -, -, hstates⟩ := PassM.mapM_eq_ok_iff.1 hrun
  obtain ⟨part, -, hpart⟩ := hstates i b hi
  rw [topBlock, block_of_not_hasRoom henabled hkind hroom] at hpart
  cases hpart

theorem endsIn_topBlocks {w : Workspace} {order : List Block} (h : order.Perm w.topBlocks) :
    (order.mapM ({ options := o } : Compiler).topBlock).EndsIn (fun _ ↦ True) w.Cause := by
  have hblocks : (order.mapM ({ options := o } : Compiler).topBlock).EndsIn
      (∀ part ∈ ·, True) w.Cause := by
    apply Ends.mapM
    intro b hb
    refine Ends.bind (endsIn_block (fun d hd henabled e hcause ↦ ?_) false) fun code _ ↦ ?_
    · have htop : b ∈ w.ordered := Workspace.mem_ordered.2 (h.subset hb)
      exact ⟨d, List.mem_flatMap.2 ⟨b, htop, hd⟩, henabled, hcause⟩
    · cases code <;> exact Ends.pure trivial
  exact hblocks.mono fun _ _ ↦ trivial

/-- In whatever order the top blocks are read, every error is due to a block of the workspace, and
without such a block there is a program.  There is none if there is not enough room for a top
block. -/
theorem program_error_cause (o : Options) (w : Workspace) :
    ({ options := o } : Compiler).program w = ({ options := o } : Compiler).programIn w w.ordered ∧
    ∀ order : List Block, order.Perm w.topBlocks →
      (∀ e, ({ options := o } : Compiler).programIn w order = .error e → w.Cause e) ∧
      ((∀ e, ¬ w.Cause e) →
        ∃ text, ({ options := o } : Compiler).programIn w order = .ok text) ∧
      ∀ b ∈ order, b.head.enabled → (gatherer? b.head.kind).isSome → ¬ b.HasRoom →
        ∀ text, ({ options := o } : Compiler).programIn w order ≠ .ok text := by
  refine ⟨program_eq_programIn _ w, fun order horder ↦ ?_⟩
  have herror (e : CompileError)
      (h : ({ options := o } : Compiler).programIn w order = .error e) : w.Cause e := by
    obtain ⟨start, p, hrun⟩ := of_programIn_error h
    exact (endsIn_topBlocks horder).of_error trivial hrun
  refine ⟨herror, fun hnone ↦ ?_, fun b hb henabled hkind hroom ↦
    programIn_ne_ok_of_not_hasRoom hb henabled hkind hroom⟩
  cases h : ({ options := o } : Compiler).programIn w order with
  | error e => exact absurd (herror e h) (hnone e)
  | ok text => exact ⟨text, rfl⟩

end Compiler

/-- A value is expected, and what stands behind the one that is disabled is a statement. -/
def statementBehindValue : Workspace where
  topBlocks := [(Block.ofKind "text_print" "a").withInput "TEXT" .value
    (some ((Block.ofKind "variables_get" "b").disabled.withNext (Block.ofKind "text_print" "c")))]

theorem Compiler.program_error_cause_behind :
    ({} : Compiler).program statementBehindValue = .error (.expectedValue "variables_get") ∧
      statementBehindValue.topBlocks.Perm statementBehindValue.topBlocks ∧
      statementBehindValue.Cause (.expectedValue "variables_get") := by
  have herror : ({} : Compiler).program statementBehindValue =
      .error (.expectedValue "variables_get") := by decide +kernel
  obtain ⟨heq, hcause⟩ := program_error_cause {} statementBehindValue
  have hordered : statementBehindValue.ordered = statementBehindValue.topBlocks := rfl
  refine ⟨herror, .refl _, (hcause _ (.refl _)).1 _ ?_⟩
  rw [← hordered, ← heq, herror]

/-! ## A panic -/

namespace Block

variable {b t : Block} {e : CompileError}

theorem ActsAs.shape_eq {s s' : Shape} (h : t.ActsAs s) (h' : t.ActsAs s') : s = s' := by
  obtain ⟨a, ha, hs⟩ := h
  obtain ⟨a', ha', hs'⟩ := h'
  cases ha.symm.trans ha'
  exact Option.some.inj (hs.symm.trans hs')

/-- A block of a kind that refuses nothing, with nothing connected to it that is out of place, can
only ask for too much room. -/
theorem Cause.eq_capacityOverflow (h : b.Cause e) (hknown : (Emitter.standard? b.head.kind).isSome)
    (hchoice : b.head.kind ∉ Emitter.refusingKinds)
    (hinputs : ∀ i ∈ b.inputs, ∀ t, i.target = some t →
      t.ActsAs (Emitter.inputShape b.head.kind i.name)) (hnext : b.next = none) :
    e = .capacityOverflow := by
  have htargets (input : String) (t : Block) (ht : b.target? input = some t) :
      t.ActsAs (Emitter.inputShape b.head.kind input) := by
    obtain ⟨i, hi, rfl, hit⟩ := exists_input_of_target? ht
    exact hinputs i hi t hit
  cases h with
  | unknown h =>
    rw [h] at hknown
    cases hknown
  | refused h => exact h.eq_capacityOverflow hchoice
  | plugged ht hacts =>
    obtain ⟨input, ht, hshape⟩ := ht
    cases hshape.symm.trans ((htargets input _ ht).shape_eq hacts)
  | held ht hacts =>
    obtain ⟨input, ht, hshape⟩ := ht
    cases hshape.symm.trans ((htargets input _ ht).shape_eq hacts)
  | followed ht hacts =>
    rw [hnext] at ht
    cases ht

end Block

/-- A list that records the largest number of elements that can be recorded. -/
def Block.endlessList : Block :=
  (ofKind "lists_create_with" "b").withMutation { itemCount := some (Nat.pow 2 64 - 1) }

/-- A procedure that returns the list. -/
def Block.listing : Block :=
  ((ofKind "procedures_defreturn" "a").withField "NAME" (.text "f")).withInput "RETURN" .value
    (some endlessList)

/-- A procedure of the same name, which takes its place. -/
def Block.relisting : Block := (ofKind "procedures_defnoreturn" "c").withField "NAME" (.text "f")

/-- The procedure that returns the list, and the one that takes its place. -/
def overfull : Workspace := { topBlocks := [.listing, .relisting] }

open Block in
/-- There is nothing in the workspace that is refused or out of place, and all that would be left of
the list is overwritten. Still there is no program, but a panic. -/
theorem Compiler.program_overfull :
    ({} : Compiler).program overfull = .error .capacityOverflow ∧
      ∀ e, overfull.Cause e → e = .capacityOverflow := by
  have hordered : overfull.ordered = [listing, relisting] := rfl
  have hall : overfull.allBlocks = [listing, endlessList, relisting] := by
    rw [Workspace.allBlocks, hordered]
    simp [descendants_eq, listing, endlessList, relisting, withInput, withField, withMutation, ofKind]
  have hreturn (i : Input Block) (hi : i ∈ listing.inputs) (t : Block) (ht : i.target = some t) :
      t.ActsAs (Emitter.inputShape listing.head.kind i.name) := by
    cases List.mem_singleton.1 hi
    cases ht
    exact ⟨endlessList, firstEnabled_of_enabled rfl, rfl⟩
  refine ⟨by decide +kernel, ?_⟩
  rintro e ⟨b, hb, -, hcause⟩
  rw [hall] at hb
  simp only [List.mem_cons, List.not_mem_nil, or_false] at hb
  rcases hb with rfl | rfl | rfl
  · exact hcause.eq_capacityOverflow (by decide) (by decide) hreturn rfl
  · exact hcause.eq_capacityOverflow (by decide) (by decide) (List.forall_mem_nil _) rfl
  · exact hcause.eq_capacityOverflow (by decide) (by decide) (List.forall_mem_nil _) rfl

end Turtle

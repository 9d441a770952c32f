import Turtle.Proofs.Block
import Turtle.Proofs.Compile.Outcome
import Turtle.Proofs.Emitter.Contract

/-!
# The texture of what blocks leave

A property of texts holds of whatever a block leaves if it holds of what emitters write, given that
it holds of the answers to their requests, and if it is kept when texts are put together.  Such an
argument is by induction on the block, with an invariant of the state that the answers depend on.
-/

namespace Turtle

open Logo (Order)
open PassM (Ends)

/-- The text of some code. -/
def Code.text : Code → String
  | statement code | value code _ => code

/-- A computation that keeps an invariant of the state and whose result, if there is one, has a
texture. -/
abbrev PassM.Leaves {α : Type} (I : Pass → Prop) (T : String → Prop) (text : α → String)
    (m : PassM α) : Prop :=
  m.Ends I (T <| text ·) fun _ ↦ True

/-- The neighbours of a block leave a texture. -/
structure Neighbours.Leave (I : Pass → Prop) (T : String → Prop) (n : Neighbours) : Prop where
  value : ∀ input outer, (n.value input outer).Leaves I T id
  statements : ∀ input, (n.statements input).Leaves I T id
  finish : ∀ code, T code → (n.finish code).Leaves I T id

variable {I : Pass → Prop} {T : String → Prop}

/-- With the invariant, identifiers have the texture, and handing them out keeps the invariant. -/
structure Pass.Grants (I : Pass → Prop) (T : String → Prop) (indent : String) : Prop where
  name : ∀ p : Pass, I p → ∀ kind nameOrId,
    T (p.name kind nameOrId).1 ∧ I (p.name kind nameOrId).2
  helper : ∀ p : Pass, I p → ∀ entry ∈ Emitter.helpers,
    T (p.helper indent entry.1 entry.2).1 ∧ I (p.helper indent entry.1 entry.2).2

namespace Recipe

variable {α : Type} {indent : String} {n : Neighbours}

/-- The answers to known requests. -/
theorem leaves_respond (hn : n.Leave I T) (hI : Pass.Grants I T indent) (hT : Texture T)
    (hindent : ∀ s, T s → T (prefixLines indent s)) {q : Request} (hq : q.Known) :
    (respond indent n q).Leaves I T id := by
  cases q with
  | value input outer => exact hn.value input outer
  | body input =>
    refine (hn.statements input).bind fun code hcode ↦ Ends.pure ?_
    split
    · exact hT.empty
    · exact hindent code hcode
  | «variable» nameOrId => exact Ends.modifyGet fun p hp ↦ hI.name p hp .variable nameOrId
  | procedure name => exact Ends.modifyGet fun p hp ↦ hI.name p hp .procedure name
  | helper key lines => exact Ends.modifyGet fun p hp ↦ hI.helper p hp (key, lines) hq

/-- What a recipe leaves that meets its contract. -/
theorem ends_run {Q : α → Prop} (hrespond : ∀ q, q.Known → (respond indent n q).Leaves I T id)
    {r : Recipe α} (h : r.Meets T Q) : (r.run indent n).Ends I Q fun _ ↦ True := by
  induction r with
  | done a => exact Ends.pure h
  | fail e => exact Ends.throw trivial
  | ask q next ih => exact (hrespond q h.1).bind fun answer hanswer ↦ ih answer (h.2 answer hanswer)
  | hoist name code next ih => exact h.elim

end Recipe

namespace Compiler

variable {c : Compiler} {b : Block}

theorem leaves_plug (hT : Texture T) (hparens : ∀ s, T s → T ("(" ++ s ++ ")")) (kind : String)
    (outer : Order) {code : Code} (h : T code.text) : (plug kind outer code).Leaves I T id := by
  cases code with
  | value code inner =>
    refine Ends.pure ?_
    split
    · exact hparens code h
    · exact h
  | statement code =>
    rw [plug]
    split
    · exact Ends.pure hT.empty
    · exact Ends.throw trivial

theorem leaves_link (kind : String) {code : Code} (h : T code.text) :
    (link kind code).Leaves I T id := by
  cases code with
  | value => exact Ends.throw trivial
  | statement => exact Ends.pure h

theorem leaves_chain (hT : Texture T) {b? : Option Block}
    (h : ∀ t, b? = some t → (c.block t false false).Leaves I T Code.text) :
    (c.chain b?).Leaves I T id := by
  cases b? with
  | none => exact Ends.pure hT.empty
  | some t => exact (h t rfl).bind fun _ ↦ leaves_link _

theorem leaves_value (hT : Texture T) (hparens : ∀ s, T s → T ("(" ++ s ++ ")")) {input : String}
    (outer : Order)
    (h : ∀ t, b.target? input = some t → (c.block t false true).Leaves I T Code.text) :
    (c.value b input outer).Leaves I T id := by
  rw [value]
  split
  · exact Ends.pure hT.empty
  · rename_i t ht
    exact (h t ht).bind fun _ ↦ leaves_plug hT hparens _ _

theorem leaves_finish (hT : Texture T) (hcomments : T (b.comments c.options.commentWidth))
    (hfollowing : (c.chain b.next).Leaves I T id) (alone plugged : Bool) (code : String)
    (hcode : T code) : (c.finish b alone plugged code).Leaves I T id := by
  have hcomments : T (if plugged then "" else b.comments c.options.commentWidth) := by
    split
    · exact hT.empty
    · exact hcomments
  have hwhole {rest : String} (hrest : T rest) := hT.append (hT.append hcomments hcode) hrest
  cases alone with
  | true => exact Ends.pure (hwhole hT.empty)
  | false => exact hfollowing.bind fun _ hrest ↦ Ends.pure (hwhole hrest)

/-- What a block adds to the texts of its neighbours has the texture. -/
structure Adds (c : Compiler) (I : Pass → Prop) (T : String → Prop) (b : Block) : Prop where
  comments : T (b.comments c.options.commentWidth)
  surround : ∀ code, T code → T (c.options.surround b.head.id code)
  emit : ∀ e, c.emitter? b.head.kind = some e → (c.neighbours b).Leave I T →
    ((e.emit (c.view e b)).run c.options.indent (c.neighbours b)).Leaves I T Emission.text

theorem leaves_settle (hT : Texture T) (hb : c.Adds I T b) (e : Emitter)
    {finish : String → PassM String} (hfinish : ∀ code, T code → (finish code).Leaves I T id)
    {emission : Emission} (h : T emission.text) :
    (c.settle e b.head finish emission).Leaves I T Code.text := by
  cases emission with
  | value code order =>
    rw [settle]
    split
    · exact (hfinish code h).bind fun _ hwhole ↦ Ends.pure hwhole
    · exact Ends.throw trivial
  | statement code =>
    refine (hfinish _ ?_).bind fun _ hwhole ↦ Ends.pure hwhole
    split
    · exact h
    · exact hb.surround code h
  | hoisted => exact Ends.pure hT.empty

/-- By induction on the block: what it leaves with everything below and behind it. -/
theorem leaves_block (hT : Texture T) (hparens : ∀ s, T s → T ("(" ++ s ++ ")"))
    (hb : ∀ d ∈ b.descendants, c.Adds I T d) (alone plugged : Bool) :
    (c.block b alone plugged).Leaves I T Code.text := by
  induction b using Block.induct_target generalizing alone plugged with
  | step b htargets hnext =>
    have htarget {input : String} {t : Block} (ht : b.target? input = some t) (plugged : Bool) :
        (c.block t false plugged).Leaves I T Code.text :=
      htargets input t ht (Block.forall_of_target hb ht) false plugged
    have hbehind {next : Block} (h : b.next = some next) (plugged : Bool) :
        (c.block next false plugged).Leaves I T Code.text :=
      hnext next h (Block.forall_of_next hb h) false plugged
    have hself := hb b b.self_mem_descendants
    have hfinish := leaves_finish hT hself.comments
      (leaves_chain hT fun next h ↦ hbehind h false)
    have hneighbours : (c.neighbours b).Leave I T := by
      refine ⟨?_, ?_, hfinish false false⟩
      · intro input outer
        exact leaves_value hT hparens outer fun t ht ↦ htarget ht true
      · intro input
        exact leaves_chain hT fun t ht ↦ htarget ht false
    rw [block_eq]
    split
    · split
      · exact Ends.throw trivial
      · rename_i e he
        exact (hself.emit e he hneighbours).bind fun _ hemission ↦
          leaves_settle hT hself e (hfinish alone plugged) hemission
    · split
      · exact Ends.pure hT.empty
      · split
        · exact Ends.pure hT.empty
        · rename_i next h
          exact hbehind h plugged

end Compiler

end Turtle

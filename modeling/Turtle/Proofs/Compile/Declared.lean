import Turtle.Proofs.Compile.Program
import Turtle.Proofs.Compile.Reference
import Turtle.Proofs.Compile.Session

/-!
# Names of declarations

The variables of a workspace and the procedures of its top blocks are named when a pass starts, before
anything else asks for a name.  Whatever a pass does afterwards, and whether it goes well or ends in an
error, names are only added.  So the identifiers of declarations depend on nothing but the
declarations.
-/

namespace Turtle

open Logo (Order)

/-! ## Names are kept -/

/-- The state in which a computation ends, in a result or in an error. -/
def PassM.after {α : Type} (m : PassM α) (p : Pass) : Pass :=
  match m p with
  | .ok _ q | .error _ q => q

/-- However the computation ends, all names are kept. -/
def PassM.Advances {α : Type} (m : PassM α) : Prop := ∀ p : Pass, p.Follows (m.after p)

namespace PassM.Advances

variable {α β : Type}

theorem pure (a : α) : Advances (pure a) := Pass.Follows.refl

theorem throw (e : CompileError) : Advances (throw e : PassM α) := Pass.Follows.refl

theorem bind {m : PassM α} (h : m.Advances) {f : α → PassM β} (hf : ∀ a, (f a).Advances) :
    (m >>= f).Advances := by
  intro p
  have hm := h p
  rw [PassM.after] at hm ⊢
  cases heq : m p with
  | ok a q =>
    rw [heq] at hm
    rw [PassM.bind_ok heq]
    exact hm.trans (hf a q)
  | error e q =>
    rw [heq] at hm
    rw [PassM.bind_error heq]
    exact hm

theorem modifyGet {f : Pass → α × Pass} (h : ∀ p : Pass, p.Follows (f p).2) :
    Advances (modifyGet f : PassM α) := h

theorem modify {f : Pass → Pass} (h : ∀ p : Pass, p.Follows (f p)) :
    Advances (modify f : PassM PUnit) := h

end PassM.Advances

open PassM (Advances)

/-- All names are kept when requests are answered. -/
structure Neighbours.Advance (n : Neighbours) : Prop where
  value : ∀ input outer, (n.value input outer).Advances
  statements : ∀ input, (n.statements input).Advances
  finish : ∀ code, (n.finish code).Advances

namespace Recipe

variable {indent : String} {n : Neighbours}

theorem advances_respond (h : n.Advance) (q : Request) : (respond indent n q).Advances := by
  cases q with
  | value input outer => exact h.value input outer
  | body input => exact (h.statements input).bind fun _ ↦ .pure _
  | «variable» nameOrId => exact .modifyGet (.name · .variable nameOrId)
  | procedure name => exact .modifyGet (.name · .procedure name)
  | helper key lines => exact .modifyGet (.helper indent · key lines)

/-- Following any recipe keeps all names, also if it fails. -/
theorem advances_run (h : n.Advance) {α : Type} (r : Recipe α) : (r.run indent n).Advances := by
  induction r with
  | done a => exact .pure a
  | fail e => exact .throw e
  | ask q next ih => exact (advances_respond h q).bind ih
  | hoist name code next ih =>
    exact (h.finish code).bind fun whole ↦ (Advances.modify (.define · name whole)).bind fun _ ↦ ih

end Recipe

namespace Compiler

variable (c : Compiler) (b : Block)

theorem advances_plug (kind : String) (outer : Order) (code : Code) :
    (plug kind outer code).Advances := by
  unfold plug
  split
  · exact .pure _
  · split
    · exact .pure _
    · exact .throw _

theorem advances_link (kind : String) (code : Code) : (link kind code).Advances := by
  cases code with
  | statement code => exact .pure code
  | value => exact .throw _

theorem advances_settle (e : Emitter) (head : Head) {finish : String → PassM String}
    (h : ∀ code, (finish code).Advances) (emission : Emission) :
    (c.settle e head finish emission).Advances := by
  cases emission with
  | value code order =>
    rw [settle]
    split
    · exact (h code).bind fun _ ↦ .pure _
    · exact .throw _
  | statement code => exact (h _).bind fun _ ↦ .pure _
  | hoisted => exact .pure _

theorem advances_finishWith {following : PassM String} (h : following.Advances)
    (alone plugged : Bool) (code : String) :
    (c.finishWith b following alone plugged code).Advances := by
  cases alone with
  | true => exact .pure _
  | false => exact h.bind fun _ ↦ .pure _

variable {c b}

theorem advances_chain {b? : Option Block}
    (h : ∀ b, b? = some b → (c.block b false false).Advances) : (c.chain b?).Advances := by
  cases b? with
  | none => exact .pure ""
  | some b => exact (h b rfl).bind fun _ ↦ advances_link _ _

theorem advance_neighbours
    (htargets : ∀ input t, b.target? input = some t → ∀ plugged, (c.block t false plugged).Advances)
    (hnext : ∀ next, b.next = some next → (c.block next false false).Advances) :
    (c.neighbours b).Advance := by
  constructor
  · intro input outer
    change (c.value b input outer).Advances
    rw [value]
    split
    · exact .pure ""
    · rename_i t ht
      exact (htargets input t ht true).bind fun _ ↦ advances_plug _ _ _
  · exact fun input ↦ advances_chain fun t ht ↦ htargets input t ht false
  · exact c.advances_finishWith b (advances_chain hnext) false false

variable (c b)

/-- By induction on the block: compiling it keeps all names, whatever its emitters do. -/
theorem advances_block (alone plugged : Bool) : (c.block b alone plugged).Advances := by
  induction b using Block.induct_target generalizing alone plugged with
  | step b htargets hnext =>
    have hneighbours : (c.neighbours b).Advance :=
      advance_neighbours (fun input t ht ↦ htargets input t ht false)
        fun next h ↦ hnext next h false false
    have hfollowing : (c.chain b.next).Advances :=
      advances_chain fun next h ↦ hnext next h false false
    rw [block_eq]
    split
    · split
      · exact .throw _
      · rename_i e _
        exact (Recipe.advances_run hneighbours _).bind
          (c.advances_settle e b.head (c.advances_finishWith b hfollowing alone plugged))
    · split
      · exact .pure _
      · split
        · exact .pure _
        · rename_i next h
          exact hnext next h false plugged

theorem neighbours_advance : (c.neighbours b).Advance :=
  advance_neighbours (fun _ t _ ↦ c.advances_block t false) fun next _ ↦
    c.advances_block next false false

end Compiler

/-- No action of a host takes a name back. -/
theorem Action.advances (c : Compiler) (a : Action) : (a.run c).Advances := by
  have hneighbours (b : Block) : (c.neighbours b).Advance := c.neighbours_advance b
  have htext {m : PassM String} (h : m.Advances) : (m >>= fun s ↦ pure (Reply.text s)).Advances :=
    h.bind fun _ ↦ .pure _
  cases a with
  | block b? alone =>
    cases b? with
    | none => exact .pure _
    | some b => exact (c.advances_block b alone false).bind fun _ ↦ .pure _
  | value b input outer => exact htext ((hneighbours b).value input outer)
  | body b input => exact htext (Recipe.advances_respond (hneighbours b) (.body input))
  | finish b alone plugged code =>
    have hfollowing : (c.chain b.next).Advances :=
      Compiler.advances_chain fun next _ ↦ c.advances_block next false false
    exact htext (c.advances_finishWith b hfollowing alone plugged code)
  | index b input delta negate order => exact htext (Recipe.advances_run (hneighbours b) _)
  | name kind nameOrId => exact htext (.modifyGet (.name · kind nameOrId))
  | helper key lines => exact htext (.modifyGet (.helper c.options.indent · key lines))
  | define procedure code => exact (Advances.modify (.define · procedure code)).bind fun _ ↦ .pure _

namespace Session

/-- Whether the pass that is under way goes on with a call. -/
def Call.continues : Call → Bool
  | register _ _ | act _ => true
  | start _ | finish _ | compile _ => false

theorem step_pass {α : Type} (s : Session) (action : Compiler → PassM α) :
    (s.step action).2.pass = (action s.compiler).after s.pass := by
  simp only [step, PassM.after, EStateM.run]
  cases action s.compiler s.pass <;> rfl

/-- What one call keeps. -/
theorem follows_perform (s : Session) {call : Call} (h : call.continues) :
    s.pass.Follows (s.perform call).2.pass := by
  cases call with
  | register => exact .refl _
  | act a =>
    change s.pass.Follows (s.step a.run).2.pass
    rw [step_pass]
    exact a.advances s.compiler s.pass
  | start | finish | compile => cases h

/-- What the calls of a pass keep. -/
theorem follows_after (s : Session) {calls : List Call} (h : ∀ call ∈ calls, call.continues) :
    s.pass.Follows (s.after calls).pass := by
  induction calls generalizing s with
  | nil => exact .refl _
  | cons call rest ih =>
    obtain ⟨hcall, hrest⟩ := List.forall_mem_cons.1 h
    exact (s.follows_perform hcall).trans (ih _ hrest)

theorem sound_unused : ({} : Pass).Sound := .of_names (Names.consistent_ofReserved _)

theorem sound_perform {s : Session} (h : s.pass.Sound) (call : Call) :
    (s.perform call).2.pass.Sound := by
  cases call with
  | register => exact h
  | start w => exact w.sound_start
  | act a => exact (s.follows_perform rfl).sound h
  | finish => exact sound_unused
  | compile w =>
    rw [perform, compile_eq]
    exact sound_unused

/-- Whatever a host does, what is registered is sound. -/
theorem sound_after (o : Options) (calls : List Call) : ((ofOptions o).after calls).pass.Sound := by
  suffices h : ∀ s : Session, s.pass.Sound → (s.after calls).pass.Sound from h _ sound_unused
  intro s hs
  induction calls generalizing s with
  | nil => exact hs
  | cons call rest ih => exact ih _ (sound_perform hs call)

/-- A state of the pass that is under way: some calls have been answered, and in the course of the
next one emitters have made some exchanges. -/
def Visits (s : Session) (p : Pass) : Prop :=
  ∃ calls events, (∀ call ∈ calls, call.continues) ∧
    Steps (s.after calls).compiler.options.indent (s.after calls).pass events p

theorem Visits.follows {s : Session} {p : Pass} (h : s.Visits p) : s.pass.Follows p := by
  obtain ⟨calls, events, hcalls, hsteps⟩ := h
  exact (s.follows_after hcalls).trans hsteps.follows

end Session

/-! ## Declarations -/

namespace Workspace

variable {w : Workspace}

/-- The identifier of a declared variable is settled when a pass starts. -/
theorem get_variable {v : Variable} (hv : v ∈ w.vars) : ∃ identifier,
    ∀ n, w.start.names.Follows n → (n.get .variable v.id).1 = identifier := by
  obtain ⟨chosen, hchosen⟩ := lookup_variable hv
  refine ⟨chosen, fun n hn ↦ ?_⟩
  have hlookup : n.given.lookup (n.key .variable v.id) = some chosen := by
    rw [Names.key_of_vars_eq hn.vars]
    exact hn.grows.given _ _ hchosen
  rw [Names.get_of_lookup hlookup]

/-- The identifier of a declared procedure is settled when a pass starts, for its name in any letter
case. -/
theorem get_procedure {name : String} (hname : name ∈ w.procedureNames) : ∃ identifier,
    ∀ n, w.start.names.Follows n → ∀ variant, lower variant = lower name →
      (n.get .procedure variant).1 = identifier := by
  obtain ⟨chosen, hchosen⟩ := Names.lookup_declare _ .procedure hname
  refine ⟨chosen, fun n hn variant hvariant ↦ ?_⟩
  have hlookup : n.given.lookup (n.key .procedure variant) = some chosen := by
    rw [Names.key, Names.resolve, hvariant]
    exact hn.grows.given _ _ hchosen
  rw [Names.get_of_lookup hlookup]

end Workspace

namespace Session

/-- In passes over workspaces that declare the same variables and procedures, a declared variable has
one identifier, and a declared procedure has one in any letter case: at any time, whatever was asked
for before, and whatever the options, the emitters and the blocks are. -/
theorem declared_names {w w' : Workspace} (hvars : w.vars = w'.vars)
    (hnames : w.procedureNames = w'.procedureNames) {s s' : Session} {p p' : Pass}
    (hp : (s.start w).Visits p) (hp' : (s'.start w').Visits p') :
    (∀ v ∈ w.vars, (p.name .variable v.id).1 = (p'.name .variable v.id).1) ∧
    ∀ name ∈ w.procedureNames, ∀ variant variant', lower variant = lower name →
      lower variant' = lower name →
        (p.name .procedure variant).1 = (p'.name .procedure variant').1 := by
  have hfollows : w.start.names.Follows p.names := hp.follows.names
  have hfollows' : w.start.names.Follows p'.names := by
    rw [Workspace.start_congr hvars hnames]
    exact hp'.follows.names
  constructor
  · intro v hv
    obtain ⟨identifier, h⟩ := Workspace.get_variable hv
    exact (h _ hfollows).trans (h _ hfollows').symm
  · intro name hname variant variant' hvariant hvariant'
    obtain ⟨identifier, h⟩ := Workspace.get_procedure hname
    exact (h _ hfollows variant hvariant).trans (h _ hfollows' variant' hvariant').symm

/-- A variable and a procedure of one name, and other blocks. -/
def homonyms (others : List Block) : Workspace where
  vars := [⟨"a", "item"⟩]
  topBlocks := others ++
    [(Block.ofKind "procedures_defnoreturn" "p").withField "NAME" (.text "item")]

/-- A call of a procedure that is not defined. -/
def undefinedCall : Block :=
  (Block.ofKind "procedures_callnoreturn" "c").withMutation { callee := some "item2" }

/-- The first call of a pass asks for a helper, and in the course of the second one an emitter asks
for the identifier of a procedure that is not defined. -/
theorem visits_homonyms :
    let s := ((ofOptions {}).start (homonyms [undefinedCall])).after [.act (.helper "item" [])]
    ((ofOptions {}).start (homonyms [undefinedCall])).Visits
      (s.pass.name .procedure "item2").2 :=
  ⟨[.act (.helper "item" [])], [.exchange undefinedCall (.answered (.procedure "item2") _)],
    by simp [Call.continues], Steps.refl.snoc rfl⟩

theorem declared_names_homonyms :
    let s := ((ofOptions {}).start (homonyms [undefinedCall])).after [.act (.helper "item" [])]
    let p := (homonyms []).start
    let p' := (s.pass.name .procedure "item2").2
    (p.name .variable "a").1 = (p'.name .variable "a").1 ∧
      (p.name .procedure "item").1 = (p'.name .procedure "ITEM").1 := by
  have hstart : ((ofOptions {}).start (homonyms [])).Visits (homonyms []).start :=
    ⟨[], [], nofun, .refl⟩
  have h := declared_names (w := homonyms []) rfl (by decide +kernel) hstart visits_homonyms
  exact ⟨h.1 ⟨"a", "item"⟩ (by decide), h.2 "item" (by decide +kernel) "item" "ITEM" rfl
    (by decide +kernel)⟩

end Session

end Turtle

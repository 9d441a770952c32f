import Turtle.Proofs.Compile.Program
import Turtle.Proofs.Compile.Registration

/-!
# What emissions tell

With the standard emitters, an emission by itself tells what it has registered: a block that defines
a procedure has registered one text, and no other block has registered any.  Definitions are
registered in the order in which the emitters of their blocks end.
-/

namespace Turtle

/-- The definitions that an emitted block has registered. -/
def Event.definitions : Event → List Definition
  | exchange _ _ => []
  | emitted b log _ => log.filterMap (·.definition? b)

/-- Definitions are registered in the order in which emitters end. -/
def Timely (events : List Event) : Prop :=
  events.filterMap Event.registered? = events.flatMap Event.definitions

theorem Timely.append {events events' : List Event} (h : Timely events) (h' : Timely events') :
    Timely (events ++ events') := by
  unfold Timely at h h' ⊢
  rw [List.filterMap_append, List.flatMap_append, h, h']

namespace Recipe

variable {α : Type} {indent : String} {n : Neighbours} {t : Traces} {b : Block}

/-- What is registered while a recipe is followed that registers at its end. -/
theorem timely_trace (hinput : ∀ input p, Timely (t.input input p))
    (hfollowing : ∀ p, Timely (t.following p)) {r : Recipe α} (hr : r.HoistsLast) (p : Pass) :
    (r.trace indent n t b p).filterMap Event.registered? =
      (r.trace indent n t b p).flatMap Event.definitions ++
        (r.log indent n p).filterMap (·.definition? b) := by
  induction r generalizing p with
  | done a => rfl
  | fail e => rfl
  | ask q next ih =>
    have hnested : Timely (nested t q p) := by
      cases q with
      | value input | body input => exact hinput input p
      | «variable» | procedure | helper => rfl
    rw [trace, log]
    cases (respond indent n q).run p with
    | error => rfl
    | ok answer p' =>
      have hrest := ih answer (hr answer) p'
      simp only [List.filterMap_append, List.flatMap_append, List.filterMap_cons,
        List.flatMap_cons, Event.registered?, Event.definitions, Exchange.definition?, hrest,
        List.nil_append]
      rw [hnested, List.append_assoc]
  | hoist name code next =>
    obtain ⟨a, rfl⟩ := hr
    rw [trace, log]
    cases (n.finish code).run p with
    | error => rfl
    | ok whole p' =>
      rw [List.filterMap_append, List.flatMap_append, hfollowing p, List.append_assoc]
      rfl

end Recipe

namespace Compiler

variable {c : Compiler}

/-- A compiler whose recipes register at their end. -/
def HoistsLast (c : Compiler) : Prop :=
  ∀ (h : Head) (e : Emitter), c.emitter? h.kind = some e → ∀ v, (e.emit v).HoistsLast

theorem timely_emitTrace (hc : c.HoistsLast) {b : Block} {t : Traces}
    (hinput : ∀ input p, Timely (t.input input p)) (hfollowing : ∀ p, Timely (t.following p))
    (alone : Bool) (p : Pass) : Timely (c.emitTrace b alone t p) := by
  unfold emitTrace
  cases he : c.emitter? b.head.kind with
  | none => rfl
  | some e =>
    have hrun : ((e.emit (c.view e b)).trace c.options.indent (c.neighbours b) t b p).filterMap
        Event.registered? = _ ++ _ :=
      Recipe.timely_trace hinput hfollowing (hc b.head e he (c.view e b)) p
    simp only
    cases ((e.emit (c.view e b)).run c.options.indent (c.neighbours b)).run p with
    | error => rfl
    | ok emission p' =>
      have hsettle : Timely (settleTrace alone t.following emission p') := by
        cases emission with
        | hoisted => rfl
        | statement | value =>
          cases alone with
          | true => rfl
          | false => exact hfollowing p'
      unfold Timely
      simp only [List.filterMap_append, List.flatMap_append, List.flatMap_cons]
      rw [hrun, List.append_assoc, ← show _ = _ from hsettle]
      rfl

/-- The standard compilers register in order. -/
theorem timely_trace (hc : c.HoistsLast) (b : Block) (alone : Bool) (p : Pass) :
    Timely (c.trace b alone p) := by
  induction b using Block.induct_target generalizing alone p with
  | step b htargets hnext =>
    have hinput (input : String) (p : Pass) : Timely ((c.traces b).input input p) := by
      change Timely (c.trace? (b.target? input) p)
      cases ht : b.target? input with
      | none => rfl
      | some t => exact htargets input t ht false p
    have hfollowing (p : Pass) : Timely (c.trace? b.next p) := by
      cases h : b.next with
      | none => rfl
      | some next => exact hnext next h false p
    rw [trace_eq]
    split
    · exact timely_emitTrace hc hinput hfollowing alone p
    · split
      · rfl
      · exact hfollowing p

theorem timely_traceAll (hc : c.HoistsLast) (blocks : List Block) (p : Pass) :
    Timely (c.traceAll blocks p) := by
  induction blocks generalizing p with
  | nil => rfl
  | cons b rest ih =>
    rw [traceAll]
    cases (c.topBlock b).run p with
    | error => rfl
    | ok part p' => exact (timely_trace hc b false p).append (ih p')

end Compiler

/-! ## Passes with the standard emitters -/

namespace Names

/-- Naming things in advance is asking for identifiers. -/
theorem follows_declare (n : Names) (kind : NameKind) (names : List String) :
    n.Follows (n.declare kind names) := by
  unfold declare
  induction names generalizing n with
  | nil => exact .refl n
  | cons name rest ih => exact (n.follows_get kind name).trans (ih (n.get kind name).2)

end Names

namespace Workspace

theorem follows_start (w : Workspace) :
    (Names.standard.setVariables (w.vars.map fun v ↦ (v.id, v.name))).Follows w.start.names :=
  (Names.follows_declare _ _ _).trans (Names.follows_declare _ _ _)

theorem sound_start (w : Workspace) : w.start.Sound :=
  .of_names (w.follows_start.consistent ((Names.consistent_ofReserved _).setVariables _))

theorem reserved_start (w : Workspace) : w.start.names.reserved = Logo.primitives.map lower :=
  w.follows_start.grows.reserved

end Workspace

/-- A pass that goes well with the standard emitters, as its events tell it. -/
structure Told (options : Options) (events : List Event) (p : Pass) : Prop where
  sound : p.Sound
  reserved : p.names.reserved = Logo.primitives.map lower
  recorded : Recorded options.indent events p
  explained : Explained { options } (fun _ _ ↦ False) events
  timely : Timely events

/-- What passes while a block is emitted by a standard emitter. -/
theorem Explained.emitted_cases {options : Options} {pending : Block → Exchange → Prop}
    {events : List Event} (h : Explained { options } pending events) {b : Block}
    {log : List Exchange} {emission : Emission} (hmem : .emitted b log emission ∈ events) :
    (b.head.isDefinition ∧ ∃ name log' code whole,
      log = .answered (.procedure (b.head.field "NAME")) name ::
        (log' ++ [.hoisted name code whole]) ∧ Opens name code ∧
      ∀ x ∈ log', ∃ q s, x = .answered q s ∧ q.Known) ∨
    ¬ b.head.isDefinition ∧ ∀ x ∈ log, ∃ q s, x = .answered q s ∧ q.Known := by
  obtain ⟨e, he, hyields, -⟩ := h.emitted b log emission hmem
  rcases Emitter.standard?_cases he with ⟨hdefinition, rfl⟩ | ⟨hdefinition, hkeeps⟩
  · obtain ⟨name, log', code, whole, heq, -, hopens, hlog, -⟩ :=
      Emitter.yields_definition hyields
    exact .inl ⟨hdefinition, name, log', code, whole, heq, hopens, hlog⟩
  · have hlog := (hkeeps _ (fun _ ↦ True) fun _ _ ↦ trivial).of_yields hyields fun _ _ _ ↦ trivial
    exact .inr ⟨hdefinition, hlog.2⟩

theorem Explained.known {options : Options} {events : List Event}
    (h : Explained { options } (fun _ _ ↦ False) events) : ∀ e ∈ events, e.Known := by
  intro e he
  cases e with
  | emitted => trivial
  | exchange b x =>
    obtain ⟨log, emission, hemitted, hx⟩ := (h.exchange b x he).resolve_left id
    cases x with
    | hoisted => trivial
    | answered q s =>
      rcases h.emitted_cases hemitted with ⟨-, name, log', code, whole, rfl, -, hlog⟩ | ⟨-, hlog⟩
      · rcases List.mem_cons.1 hx with hx | hx
        · cases hx
          trivial
        · rcases List.mem_append.1 hx with hx | hx
          · obtain ⟨_, _, heq, hknown⟩ := hlog _ hx
            cases heq
            exact hknown
          · cases List.mem_singleton.1 hx
      · obtain ⟨_, _, heq, hknown⟩ := hlog _ hx
        cases heq
        exact hknown

namespace Compiler

/-- What holds after every pass that goes well. -/
theorem told {options : Options} {w : Workspace} {parts : List String} {p : Pass}
    (h : (({ options } : Compiler).topBlocks w).run w.start = .ok parts p) :
    Told options (({ options } : Compiler).traceOf w) p := by
  obtain ⟨hsteps, hexplained⟩ := traced_topBlocks h
  have hfollows := hsteps.follows
  refine ⟨hfollows.sound w.sound_start, ?_, ?_, hexplained, ?_⟩
  · exact hfollows.names.grows.reserved.trans w.reserved_start
  · exact (Recorded.start rfl rfl).run hsteps hexplained.known
  · exact timely_traceAll (fun _ _ he v ↦ Emitter.hoistsLast_standard he v) _ _

end Compiler

end Turtle

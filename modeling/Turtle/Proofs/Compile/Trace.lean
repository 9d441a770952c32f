import Turtle.Compile.Session
import Turtle.Proofs.Block
import Turtle.Proofs.Compile.Following

/-!
# Traces

The trace of a successful pass tells, in order, what every emitter was told, which definitions were
registered, and what was written for every block.  It is obtained by following the pass a second
time.  Two facts make it useful: the state after a pass is the one that the exchanges of its trace
lead to one by one, and the exchanges of a block are those by which its recipe yields what was
written for it.
-/

namespace Turtle

/-- What passes between a recipe and the pass that follows it. -/
inductive Exchange where
  | answered (request : Request) (answer : String)
  /-- `code` was registered as a definition, and `whole` is what it has become. -/
  | hoisted (name code whole : String)

/-- What happens in a pass. -/
inductive Event where
  /-- The emitter of a block had an exchange. -/
  | exchange (b : Block) (x : Exchange)
  /-- The emitter of a block has ended, after these exchanges. -/
  | emitted (b : Block) (log : List Exchange) (emission : Emission)

/-- The traces of the neighbours of a block. -/
structure Traces where
  input : String → Pass → List Event
  following : Pass → List Event

namespace Recipe

variable {α : Type}

/-- The recipe ends with a result after some exchanges. -/
inductive Yields : Recipe α → List Exchange → α → Prop
  | done (a : α) : Yields (done a) [] a
  | ask {q : Request} {next : String → Recipe α} {answer : String} {log : List Exchange} {a : α}
    (h : Yields (next answer) log a) : Yields (ask q next) (.answered q answer :: log) a
  | hoist {name code whole : String} {next : Recipe α} {log : List Exchange} {a : α}
    (h : Yields next log a) : Yields (hoist name code next) (.hoisted name code whole :: log) a

/-- The exchanges of a recipe that is followed. -/
def log (indent : String) (n : Neighbours) : Recipe α → Pass → List Exchange
  | done _, _ | fail _, _ => []
  | ask q next, p =>
    match (respond indent n q).run p with
    | .ok answer p' => .answered q answer :: (next answer).log indent n p'
    | .error _ _ => []
  | hoist name code next, p =>
    match (n.finish code).run p with
    | .ok whole p' => .hoisted name code whole :: next.log indent n (p'.define name whole)
    | .error _ _ => []

/-- What happens while a request is answered. -/
def nested (t : Traces) : Request → Pass → List Event
  | .value input _ | .body input => t.input input
  | .variable _ | .procedure _ | .helper _ _ => fun _ ↦ []

/-- What happens while a recipe of a block is followed. -/
def trace (indent : String) (n : Neighbours) (t : Traces) (b : Block) :
    Recipe α → Pass → List Event
  | done _, _ | fail _, _ => []
  | ask q next, p =>
    match (respond indent n q).run p with
    | .ok answer p' =>
      nested t q p ++ .exchange b (.answered q answer) :: (next answer).trace indent n t b p'
    | .error _ _ => []
  | hoist name code next, p =>
    match (n.finish code).run p with
    | .ok whole p' =>
      t.following p ++ .exchange b (.hoisted name code whole) ::
        next.trace indent n t b (p'.define name whole)
    | .error _ _ => []

end Recipe

namespace Compiler

/-- What happens after an emission: the statements after the block are compiled, unless it is taken
alone or all of it was registered as a definition. -/
def settleTrace (alone : Bool) (following : Pass → List Event) : Emission → Pass → List Event
  | .statement _ | .value _ _ => if alone then fun _ ↦ [] else following
  | .hoisted => fun _ ↦ []

/-- What happens while a block is emitted. -/
def emitTrace (c : Compiler) (b : Block) (alone : Bool) (t : Traces) (p : Pass) : List Event :=
  match c.emitter? b.head.kind with
  | none => []
  | some e =>
    let recipe := e.emit (c.view e b)
    match (recipe.run c.options.indent (c.neighbours b)).run p with
    | .ok emission p' =>
      recipe.trace c.options.indent (c.neighbours b) t b p ++
        .emitted b (recipe.log c.options.indent (c.neighbours b) p) emission ::
          settleTrace alone t.following emission p'
    | .error _ _ => []

/-- What happens while a block and the statements after it are compiled. -/
def trace (c : Compiler) (b : Block) (alone : Bool) (p : Pass) : List Event :=
  if b.head.enabled then
    c.emitTrace b alone {
      input := fun input ↦
        match _h : b.target? input with
        | none => fun _ ↦ []
        | some t => c.trace t false
      following :=
        match _h : b.next with
        | none => fun _ ↦ []
        | some next => c.trace next false } p
  else if alone then []
  else match _h : b.next with
    | none => []
    | some next => c.trace next false p
termination_by sizeOf b
decreasing_by
  · exact Block.sizeOf_target _h
  · exact Block.sizeOf_next _h
  · exact Block.sizeOf_next _h

/-- What happens while a block that may be missing is compiled. -/
def trace? (c : Compiler) : Option Block → Pass → List Event
  | none => fun _ ↦ []
  | some b => c.trace b false

/-- What happens while the neighbours of a block are compiled. -/
def traces (c : Compiler) (b : Block) : Traces where
  input input := c.trace? (b.target? input)
  following := c.trace? b.next

theorem trace_eq (c : Compiler) (b : Block) (alone : Bool) (p : Pass) :
    c.trace b alone p =
      if b.head.enabled then c.emitTrace b alone (c.traces b) p
      else if alone then [] else c.trace? b.next p := by
  have htarget (input : String) : (match _h : b.target? input with
      | none => fun _ ↦ []
      | some t => c.trace t false) = c.trace? (b.target? input) := by
    cases b.target? input <;> rfl
  have hnext : (match _h : b.next with
      | none => fun _ ↦ []
      | some next => c.trace next false) = c.trace? b.next := by
    cases b.next <;> rfl
  rw [trace]
  simp only [htarget, hnext]
  split
  · rfl
  · split
    · rfl
    · cases b.next <;> rfl

end Compiler

/-! ## The state follows the trace -/

/-- What an exchange does to the state. -/
def Exchange.Moves (indent : String) (p : Pass) : Exchange → Pass → Prop
  | .answered (.variable nameOrId) answer, q => p.name .variable nameOrId = (answer, q)
  | .answered (.procedure name) answer, q => p.name .procedure name = (answer, q)
  | .answered (.helper key lines) answer, q => p.helper indent key lines = (answer, q)
  | .answered (.value _ _) _, q | .answered (.body _) _, q => q = p
  | .hoisted name _ whole, q => q = p.define name whole

/-- What an event does to the state. -/
def Event.Moves (indent : String) (p : Pass) : Event → Pass → Prop
  | .exchange _ x, q => x.Moves indent p q
  | .emitted _ _ _, q => q = p

/-- The states that events lead to. -/
inductive Steps (indent : String) (p : Pass) : List Event → Pass → Prop
  | refl : Steps indent p [] p
  | snoc {events : List Event} {q r : Pass} {e : Event} (h : Steps indent p events q)
    (he : e.Moves indent q r) : Steps indent p (events ++ [e]) r

namespace Steps

variable {indent : String} {p q r : Pass} {events events' : List Event} {e : Event}

theorem append (h : Steps indent p events q) (h' : Steps indent q events' r) :
    Steps indent p (events ++ events') r := by
  induction h' with
  | refl => rwa [List.append_nil]
  | snoc _ he ih =>
    rw [← List.append_assoc]
    exact ih.snoc he

theorem cons (he : e.Moves indent p q) (h : Steps indent q events r) :
    Steps indent p (e :: events) r := by
  have hone : Steps indent p [e] q := Steps.refl.snoc he
  exact hone.append h

end Steps

/-! ## Exchanges belong to emissions -/

/-- Every emission is what the recipe of the block yields by its exchanges, and every exchange
belongs to an emission, except for those that are `pending`.  A definition begins with the comments
of its block and its code. -/
structure Explained (c : Compiler) (pending : Block → Exchange → Prop) (events : List Event) :
    Prop where
  emitted : ∀ b log emission, .emitted b log emission ∈ events →
    ∃ e, c.emitter? b.head.kind = some e ∧ (e.emit (c.view e b)).Yields log emission ∧
      ∀ x ∈ log, .exchange b x ∈ events
  exchange : ∀ b x, .exchange b x ∈ events →
    pending b x ∨ ∃ log emission, .emitted b log emission ∈ events ∧ x ∈ log
  whole : ∀ b name code whole, .exchange b (.hoisted name code whole) ∈ events →
    ∃ rest, whole = b.comments c.options.commentWidth ++ code ++ rest

namespace Explained

variable {c : Compiler} {pending : Block → Exchange → Prop} {events events' : List Event}

theorem nil : Explained c pending [] := ⟨nofun, nofun, nofun⟩

theorem append (h : Explained c pending events) (h' : Explained c pending events') :
    Explained c pending (events ++ events') := by
  constructor
  · rintro b log emission hmem
    rcases List.mem_append.1 hmem with hmem | hmem
    · obtain ⟨e, he, hyields, hlog⟩ := h.emitted b log emission hmem
      exact ⟨e, he, hyields, fun x hx ↦ List.mem_append_left _ (hlog x hx)⟩
    · obtain ⟨e, he, hyields, hlog⟩ := h'.emitted b log emission hmem
      exact ⟨e, he, hyields, fun x hx ↦ List.mem_append_right _ (hlog x hx)⟩
  · rintro b x hmem
    rcases List.mem_append.1 hmem with hmem | hmem
    · rcases h.exchange b x hmem with hpending | ⟨log, emission, hemitted, hx⟩
      · exact .inl hpending
      · exact .inr ⟨log, emission, List.mem_append_left _ hemitted, hx⟩
    · rcases h'.exchange b x hmem with hpending | ⟨log, emission, hemitted, hx⟩
      · exact .inl hpending
      · exact .inr ⟨log, emission, List.mem_append_right _ hemitted, hx⟩
  · rintro b name code whole hmem
    rcases List.mem_append.1 hmem with hmem | hmem
    · exact h.whole b name code whole hmem
    · exact h'.whole b name code whole hmem

theorem mono {pending' : Block → Exchange → Prop} (h : Explained c pending events)
    (himp : ∀ b x, pending b x → pending' b x) : Explained c pending' events where
  emitted := h.emitted
  exchange b x hmem := (h.exchange b x hmem).imp_left (himp b x)
  whole := h.whole

/-- An exchange by itself is pending. -/
theorem exchange_singleton {b : Block} {x : Exchange} (hpending : pending b x)
    (hwhole : ∀ name code whole, x = .hoisted name code whole →
      ∃ rest, whole = b.comments c.options.commentWidth ++ code ++ rest) :
    Explained c pending [.exchange b x] := by
  refine ⟨?_, ?_, ?_⟩
  · rintro b log emission hmem
    cases List.mem_singleton.1 hmem
  · rintro b' x' hmem
    cases List.mem_singleton.1 hmem
    exact .inl hpending
  · rintro b' name code whole hmem
    cases List.mem_singleton.1 hmem
    exact hwhole name code whole rfl

/-- An exchange, after what happens before its answer and before the rest of its recipe. -/
theorem exchange_cons {b : Block} {x : Exchange} {log : List Exchange}
    (h : Explained c (fun _ _ ↦ False) events)
    (hwhole : ∀ name code whole, x = .hoisted name code whole →
      ∃ rest, whole = b.comments c.options.commentWidth ++ code ++ rest)
    (h' : Explained c (fun b' y ↦ b' = b ∧ y ∈ log) events') :
    Explained c (fun b' y ↦ b' = b ∧ y ∈ x :: log) (events ++ .exchange b x :: events') := by
  have hself : Explained c (fun b' y ↦ b' = b ∧ y ∈ x :: log) [.exchange b x] :=
    exchange_singleton ⟨rfl, List.mem_cons_self⟩ hwhole
  refine (h.mono fun _ _ ↦ False.elim).append (hself.append (h'.mono ?_))
  rintro b' y ⟨hb, hy⟩
  exact ⟨hb, List.mem_cons_of_mem _ hy⟩

/-- An emission settles what was pending for it. -/
theorem settle {b : Block} {log : List Exchange} {emission : Emission} {e : Emitter}
    (h : Explained c (fun b' x ↦ b' = b ∧ x ∈ log) events)
    (hlog : ∀ x ∈ log, .exchange b x ∈ events) (he : c.emitter? b.head.kind = some e)
    (hyields : (e.emit (c.view e b)).Yields log emission) :
    Explained c (fun _ _ ↦ False) (events ++ [.emitted b log emission]) := by
  have hsub : events ⊆ events ++ [.emitted b log emission] := List.subset_append_left _ _
  constructor
  · rintro b' log' emission' hmem
    rcases List.mem_append.1 hmem with hmem | hmem
    · obtain ⟨e', he', hyields', hlog'⟩ := h.emitted b' log' emission' hmem
      exact ⟨e', he', hyields', fun x hx ↦ hsub (hlog' x hx)⟩
    · cases List.mem_singleton.1 hmem
      exact ⟨e, he, hyields, fun x hx ↦ hsub (hlog x hx)⟩
  · rintro b' x hmem
    rcases List.mem_append.1 hmem with hmem | hmem
    · rcases h.exchange b' x hmem with ⟨rfl, hx⟩ | ⟨log', emission', hemitted, hx⟩
      · exact .inr ⟨log, emission, List.mem_append_right _ (List.mem_singleton.2 rfl), hx⟩
      · exact .inr ⟨log', emission', hsub hemitted, hx⟩
    · cases List.mem_singleton.1 hmem
  · rintro b' name code whole hmem
    rcases List.mem_append.1 hmem with hmem | hmem
    · exact h.whole b' name code whole hmem
    · cases List.mem_singleton.1 hmem

end Explained

/-! ## Traces are right -/

/-- A trace tells what happens in a computation that goes well. -/
def Traced {α : Type} (c : Compiler) (m : PassM α) (events : Pass → List Event) : Prop :=
  ∀ p a q, m p = .ok a q →
    Steps c.options.indent p (events p) q ∧ Explained c (fun _ _ ↦ False) (events p)

namespace Traced

variable {α β : Type} {c : Compiler}

theorem pure (a : α) : Traced c (pure a) fun _ ↦ [] := by
  rintro p _ _ ⟨⟩
  exact ⟨.refl, .nil⟩

/-- Going on without touching the state. -/
theorem bind {m : PassM α} {events : Pass → List Event} (h : Traced c m events) {f : α → PassM β}
    (hf : ∀ a p b q, f a p = .ok b q → q = p) : Traced c (m >>= f) events := by
  intro p b q hrun
  obtain ⟨a, p', hm, ha⟩ := PassM.of_bind_ok hrun
  rw [hf a p' b q ha]
  exact h p a p' hm

end Traced

namespace Compiler

theorem plug_state {kind : String} {outer : Logo.Order} {code : Code} {p q : Pass} {s : String}
    (h : plug kind outer code p = .ok s q) : q = p := by
  unfold plug at h
  split at h
  · cases h
    rfl
  · split at h
    · cases h
      rfl
    · cases h

theorem link_state {kind : String} {code : Code} {p q : Pass} {s : String}
    (h : link kind code p = .ok s q) : q = p := by
  cases code with
  | statement => cases h; rfl
  | value => cases h

theorem finish_eq (c : Compiler) (b : Block) (alone plugged : Bool) (code : String) :
    c.finish b alone plugged code =
      (if alone then pure "" else c.chain b.next) >>= fun rest ↦
        pure ((if plugged then "" else b.comments c.options.commentWidth) ++ code ++ rest) := by
  cases alone <;> rfl

/-- What finishing a block leaves is the code between its comments and the statements after it. -/
theorem of_finish_ok {c : Compiler} {b : Block} {alone plugged : Bool} {code whole : String}
    {p q : Pass} (h : c.finish b alone plugged code p = .ok whole q) :
    ∃ rest, (if alone then pure "" else c.chain b.next) p = .ok rest q ∧
      whole = (if plugged then "" else b.comments c.options.commentWidth) ++ code ++ rest := by
  rw [finish_eq] at h
  obtain ⟨rest, p', hrest, hwhole⟩ := PassM.of_bind_ok h
  cases hwhole
  exact ⟨rest, hrest, rfl⟩

section Recipes

variable {c : Compiler} {b : Block}

/-- The neighbours of a block are traced. -/
structure TracedNeighbours (c : Compiler) (b : Block) : Prop where
  value : ∀ input outer, Traced c (c.value b input outer) ((c.traces b).input input)
  statements : ∀ input, Traced c (c.chain (b.target? input)) ((c.traces b).input input)
  following : Traced c (c.chain b.next) (c.traces b).following

theorem traced_respond (h : TracedNeighbours c b) {q : Request} {p p' : Pass} {answer : String}
    (hrespond : Recipe.respond c.options.indent (c.neighbours b) q p = .ok answer p') :
    ∃ p₀, Steps c.options.indent p (Recipe.nested (c.traces b) q p) p₀ ∧
      Explained c (fun _ _ ↦ False) (Recipe.nested (c.traces b) q p) ∧
      (Exchange.answered q answer).Moves c.options.indent p₀ p' := by
  cases q with
  | value input outer =>
    obtain ⟨hsteps, hexplained⟩ := h.value input outer p answer p' hrespond
    exact ⟨p', hsteps, hexplained, rfl⟩
  | body input =>
    obtain ⟨code, p₁, hcode, hanswer⟩ := PassM.of_bind_ok hrespond
    obtain ⟨hsteps, hexplained⟩ := h.statements input p code p₁ hcode
    refine ⟨p₁, hsteps, hexplained, ?_⟩
    cases hanswer
    rfl
  | «variable» _ | procedure _ | helper _ _ =>
    refine ⟨p, .refl, .nil, ?_⟩
    cases hrespond
    rfl

theorem mem_exchanges_cons {x : Exchange} {log : List Exchange} {events rest : List Event}
    (h : ∀ y ∈ log, .exchange b y ∈ rest) :
    ∀ y ∈ x :: log, .exchange b y ∈ events ++ .exchange b x :: rest := by
  intro y hy
  rcases List.mem_cons.1 hy with rfl | hy
  · exact List.mem_append_right _ List.mem_cons_self
  · exact List.mem_append_right _ (List.mem_cons_of_mem _ (h y hy))

/-- What a recipe yields, and what happens while it is followed. -/
theorem traced_run {α : Type} (h : TracedNeighbours c b) (r : Recipe α) {p q : Pass} {a : α}
    (hrun : r.run c.options.indent (c.neighbours b) p = .ok a q) :
    r.Yields (r.log c.options.indent (c.neighbours b) p) a ∧
      Steps c.options.indent p (r.trace c.options.indent (c.neighbours b) (c.traces b) b p) q ∧
      Explained c (fun b' x ↦ b' = b ∧ x ∈ r.log c.options.indent (c.neighbours b) p)
        (r.trace c.options.indent (c.neighbours b) (c.traces b) b p) ∧
      ∀ x ∈ r.log c.options.indent (c.neighbours b) p,
        .exchange b x ∈ r.trace c.options.indent (c.neighbours b) (c.traces b) b p := by
  induction r generalizing p with
  | done a =>
    cases hrun
    exact ⟨.done a, .refl, .nil, nofun⟩
  | fail e => cases hrun
  | ask request next ih =>
    obtain ⟨answer, p', hrespond, hrest⟩ := PassM.of_bind_ok hrun
    obtain ⟨p₀, hsteps, hexplained, hmoves⟩ := traced_respond h hrespond
    obtain ⟨hyields, hsteps', hexplained', hlog⟩ := ih answer hrest
    simp only [Recipe.log, Recipe.trace, EStateM.run, hrespond]
    refine ⟨hyields.ask, ?_, ?_, mem_exchanges_cons hlog⟩
    · exact hsteps.append (.cons hmoves hsteps')
    · apply hexplained.exchange_cons _ hexplained'
      rintro _ _ _ ⟨⟩
  | hoist name code next ih =>
    obtain ⟨whole, p', hfinish, hrest⟩ := PassM.of_bind_ok hrun
    have hfinish : c.finish b false false code p = .ok whole p' := hfinish
    obtain ⟨rest, hfollowing, hwhole⟩ := of_finish_ok hfinish
    obtain ⟨hsteps, hexplained⟩ := h.following p rest p' hfollowing
    obtain ⟨hyields, hsteps', hexplained', hlog⟩ := ih hrest
    have hfinish' : (c.neighbours b).finish code p = .ok whole p' := hfinish
    simp only [Recipe.log, Recipe.trace, EStateM.run, hfinish']
    refine ⟨hyields.hoist, ?_, ?_, mem_exchanges_cons hlog⟩
    · exact hsteps.append (.cons rfl hsteps')
    · apply hexplained.exchange_cons _ hexplained'
      rintro _ _ _ ⟨⟩
      exact ⟨rest, hwhole⟩

theorem traced_settle (h : TracedNeighbours c b) {e : Emitter} {alone plugged : Bool}
    (emission : Emission) :
    Traced c (c.settle e b.head (c.finish b alone plugged) emission)
      (settleTrace alone (c.traces b).following emission) := by
  have hfinish (code : String) : Traced c (c.finish b alone plugged code)
      (if alone then fun _ ↦ [] else (c.traces b).following) := by
    intro p whole q hwhole
    obtain ⟨rest, hrest, -⟩ := of_finish_ok hwhole
    cases alone with
    | true => exact Traced.pure "" p rest q hrest
    | false => exact h.following p rest q hrest
  cases emission with
  | value code order =>
    intro p written q hsettle
    have heq : c.settle e b.head (c.finish b alone plugged) (.value code order) =
        if e.shape = .value then c.finish b alone plugged code >>= fun s ↦ pure (.value s order)
        else throw (.expectedStatement b.head.kind) := rfl
    rw [heq] at hsettle
    by_cases hshape : e.shape = .value
    · rw [if_pos hshape] at hsettle
      obtain ⟨whole, p', hwhole, hpure⟩ := PassM.of_bind_ok hsettle
      cases hpure
      exact hfinish code p whole _ hwhole
    · rw [if_neg hshape] at hsettle
      cases hsettle
  | statement code =>
    intro p written q hsettle
    obtain ⟨whole, p', hwhole, hpure⟩ := PassM.of_bind_ok hsettle
    cases hpure
    exact hfinish _ p whole _ hwhole
  | hoisted => exact Traced.pure _

/-- The trace of a block whose neighbours are traced. -/
theorem traced_emit (h : TracedNeighbours c b) (henabled : b.head.enabled) (alone plugged : Bool) :
    Traced c (c.block b alone plugged) (c.emitTrace b alone (c.traces b)) := by
  intro p code q hblock
  rw [block_eq, if_pos henabled] at hblock
  unfold emitTrace
  cases he : c.emitter? b.head.kind with
  | none =>
    rw [he] at hblock
    cases hblock
  | some e =>
    rw [he] at hblock
    obtain ⟨emission, p', hrun, hsettle⟩ := PassM.of_bind_ok hblock
    obtain ⟨hyields, hsteps, hexplained, hlog⟩ := traced_run h _ hrun
    obtain ⟨hsteps', hexplained'⟩ := traced_settle h emission p' code q hsettle
    simp only [EStateM.run, hrun]
    constructor
    · exact hsteps.append (.cons rfl hsteps')
    · rw [← List.singleton_append, ← List.append_assoc]
      exact (hexplained.settle hlog he hyields).append hexplained'

end Recipes

/-- A block that may be missing, in a place of its own. -/
theorem traced_chain {c : Compiler} {b? : Option Block}
    (h : ∀ b, b? = some b → ∀ plugged, Traced c (c.block b false plugged) (c.trace b false)) :
    Traced c (c.chain b?) (c.trace? b?) := by
  cases b? with
  | none => exact Traced.pure ""
  | some b => exact (h b rfl false).bind fun _ _ _ _ ↦ link_state

/-- The trace of a block is what happens while it is compiled. -/
theorem traced_block (c : Compiler) (b : Block) (alone plugged : Bool) :
    Traced c (c.block b alone plugged) (c.trace b alone) := by
  induction b using Block.induct_target generalizing alone plugged with
  | step b htargets hnext =>
    have hneighbours : TracedNeighbours c b := by
      refine ⟨fun input outer ↦ ?_, fun input ↦ ?_, ?_⟩
      · change Traced c (c.value b input outer) (c.trace? (b.target? input))
        unfold value
        cases ht : b.target? input with
        | none => exact Traced.pure ""
        | some t => exact (htargets input t ht false true).bind fun _ _ _ _ ↦ plug_state
      · exact traced_chain fun t ht ↦ htargets input t ht false
      · exact traced_chain fun next h plugged ↦ hnext next h false plugged
    intro p code q hblock
    rw [trace_eq]
    split
    case isTrue henabled => exact traced_emit hneighbours henabled alone plugged p code q hblock
    case isFalse henabled =>
      rw [block_eq, if_neg henabled] at hblock
      split
      · rename_i halone
        rw [if_pos halone] at hblock
        exact Traced.pure _ p code q hblock
      · rename_i halone
        rw [if_neg halone] at hblock
        cases h : b.next with
        | none =>
          rw [h] at hblock
          exact Traced.pure _ p code q hblock
        | some next =>
          rw [h] at hblock
          exact hnext next h false plugged p code q hblock

/-- What happens while top blocks are compiled. -/
def traceAll (c : Compiler) : List Block → Pass → List Event
  | [], _ => []
  | b :: rest, p =>
    match (c.topBlock b).run p with
    | .ok _ p' => c.trace b false p ++ c.traceAll rest p'
    | .error _ _ => []

/-- What happens in a pass over a workspace. -/
def traceOf (c : Compiler) (w : Workspace) : List Event := c.traceAll w.ordered w.start

theorem traced_topBlock (c : Compiler) (b : Block) : Traced c (c.topBlock b) (c.trace b false) := by
  refine (traced_block c b false false).bind fun code p s q h ↦ ?_
  cases code <;> cases h <;> rfl

theorem traced_mapM (c : Compiler) (blocks : List Block) :
    Traced c (blocks.mapM c.topBlock) (c.traceAll blocks) := by
  induction blocks with
  | nil => exact Traced.pure []
  | cons b rest ih =>
    intro p parts q h
    rw [List.mapM_cons] at h
    obtain ⟨part, p₁, hpart, h⟩ := PassM.of_bind_ok h
    obtain ⟨parts', p₂, hparts, h⟩ := PassM.of_bind_ok h
    cases h
    obtain ⟨hsteps, hexplained⟩ := traced_topBlock c b p part p₁ hpart
    obtain ⟨hsteps', hexplained'⟩ := ih p₁ parts' _ hparts
    simp only [traceAll, EStateM.run, hpart]
    exact ⟨hsteps.append hsteps', hexplained.append hexplained'⟩

/-- The trace of a pass that goes well. -/
theorem traced_topBlocks {c : Compiler} {w : Workspace} {parts : List String} {p : Pass}
    (h : (c.topBlocks w).run w.start = .ok parts p) :
    Steps c.options.indent w.start (c.traceOf w) p ∧
      Explained c (fun _ _ ↦ False) (c.traceOf w) := by
  obtain ⟨all, p', hall, h⟩ := PassM.of_bind_ok h
  cases h
  exact traced_mapM c w.ordered w.start all _ hall

end Compiler

end Turtle

import Turtle.Proofs.Compile.Firing
import Turtle.Proofs.Compile.Registration
import Turtle.Proofs.Emitter.Flat

/-!
# Passes side by side

A pass with snippets is followed beside one without.  As long as no procedure is defined, both hand
out the same identifiers and collect the same helpers, so a recipe that needs no statements does the
same in both.
-/

namespace Turtle

open Logo (Order)

/-! ## Tables -/

section

variable {M : Type} {line : M → List Char} {ms ms' : Multiset M}
  {t₀ t t₀' t' : List (String × String)}

/-- Definitions under the same keys, into which the lines of some marks are woven. -/
inductive WovenTable (line : M → List Char) :
    Multiset M → List (String × String) → List (String × String) → Prop
  | nil : WovenTable line 0 [] []
  | cons {ms ms' : Multiset M} {s₀ s : String} {t₀ t : List (String × String)} (key : String)
    (h : Woven line ms (s₀ ++ "\n") (s ++ "\n")) (ht : WovenTable line ms' t₀ t) :
    WovenTable line (ms + ms') ((key, s₀) :: t₀) ((key, s) :: t)

namespace WovenTable

theorem append (h : WovenTable line ms t₀ t) (h' : WovenTable line ms' t₀' t') :
    WovenTable line (ms + ms') (t₀ ++ t₀') (t ++ t') := by
  induction h with
  | nil => rwa [zero_add]
  | cons key h _ ih =>
    rw [add_assoc]
    exact ih.cons key h

theorem singleton (key : String) {s₀ s : String} (h : Woven line ms (s₀ ++ "\n") (s ++ "\n")) :
    WovenTable line ms [(key, s₀)] [(key, s)] := by
  rw [← add_zero ms]
  exact nil.cons key h

theorem keys_eq (h : WovenTable line ms t₀ t) : t₀.map (·.1) = t.map (·.1) := by
  induction h with
  | nil => rfl
  | cons key _ _ ih => rw [List.map_cons, List.map_cons, ih]

end WovenTable

end

/-- A key that is not there comes last. -/
theorem Table.put_eq_append {β : Type} {key : String} {t : List (String × β)}
    (h : key ∉ t.map (·.1)) (value : β) : Table.put key value t = t ++ [(key, value)] := by
  induction t with
  | nil => rfl
  | cons entry t ih =>
    rw [List.map_cons, List.mem_cons, not_or] at h
    rw [Table.put, if_neg (Ne.symm h.1), ih h.2, List.cons_append]

/-! ## States -/

section

variable {M : Type} {line : M → List Char} {keys : List String} {ms ms' : Multiset M}
  {p₀ p : Pass}

/-- The second state is that of a pass with snippets, where the first one is that of the pass
without them.  The procedures that were defined are under some keys. -/
structure Tracks (line : M → List Char) (keys : List String) (ms : Multiset M) (p₀ p : Pass) :
    Prop where
  names : p₀.names = p.names
  helpers : p₀.helpers = p.helpers
  definitions : WovenTable line ms p₀.definitions p.definitions
  known : ∀ key ∈ p.definitions.map (·.1), key ∈ Emitter.helpers.map (·.1) ∨ key ∈ keys

namespace Tracks

theorem refl {p : Pass} (h : p.definitions = []) : Tracks line [] 0 p p :=
  ⟨rfl, rfl, by rw [h]; exact .nil, by simp [h]⟩

theorem name (h : Tracks line keys ms p₀ p) (kind : NameKind) (nameOrId : String) :
    (p₀.name kind nameOrId).1 = (p.name kind nameOrId).1 ∧
      Tracks line keys ms (p₀.name kind nameOrId).2 (p.name kind nameOrId).2 := by
  rw [Pass.name_eq, Pass.name_eq, h.names]
  exact ⟨rfl, rfl, h.helpers, h.definitions, h.known⟩

theorem helper (h : Tracks line keys ms p₀ p) (indent : String) {key : String}
    {lines : List String} (hknown : (key, lines) ∈ Emitter.helpers) :
    (p₀.helper indent key lines).1 = (p.helper indent key lines).1 ∧
      Tracks line keys ms (p₀.helper indent key lines).2 (p.helper indent key lines).2 := by
  unfold Pass.helper
  rw [h.names, h.helpers]
  split
  · exact ⟨rfl, h⟩
  · refine ⟨rfl, rfl, rfl, ?_, fun key' hkey' ↦ ?_⟩
    · rw [← add_zero ms]
      exact h.definitions.append (.singleton key (.same _))
    · rw [List.map_append, List.mem_append] at hkey'
      rcases hkey' with hkey' | hkey'
      · exact h.known key' hkey'
      · rw [List.mem_singleton.1 hkey']
        exact .inl (List.mem_map_of_mem hknown)

/-- A procedure is defined that was not. -/
theorem define (h : Tracks line keys ms p₀ p) {name : String}
    (hkey : Pass.procedureKey name ∉ keys) {s₀ s : String}
    (hs : Woven line ms' (s₀ ++ "\n") (s ++ "\n")) :
    Tracks line (Pass.procedureKey name :: keys) (ms + ms') (p₀.define name s₀)
      (p.define name s) := by
  have hnew : Pass.procedureKey name ∉ p.definitions.map (·.1) := by
    intro hmem
    rcases h.known _ hmem with hhelper | hprocedure
    · obtain ⟨entry, hentry, heq⟩ := List.mem_map.1 hhelper
      exact helper_ne_procedureKey hentry name heq
    · exact hkey hprocedure
  have hnew₀ : Pass.procedureKey name ∉ p₀.definitions.map (·.1) := by
    rw [h.definitions.keys_eq]
    exact hnew
  refine ⟨h.names, h.helpers, ?_, fun key hmem ↦ ?_⟩
  · rw [Pass.define, Pass.define, Table.put_eq_append hnew, Table.put_eq_append hnew₀]
    exact h.definitions.append (.singleton _ hs)
  · rw [Pass.define, Table.put_eq_append hnew, List.map_append, List.mem_append] at hmem
    rcases hmem with hmem | hmem
    · exact (h.known key hmem).imp_right (List.mem_cons_of_mem _)
    · rw [List.mem_singleton.1 hmem]
      exact .inr List.mem_cons_self

end Tracks

/-! ## Computations -/

variable {α β O : Type}

/-- Whenever the first computation goes well, the second one does beside it, and what is seen of it
and both results are related.  Where the first one ends in an error, so does the second one. -/
structure Simulates (line : M → List Char) (m₀ m : PassM α) (seen : Pass → O)
    (R : O → α → α → Prop) : Prop where
  ok {keys : List String} {ms : Multiset M} {p₀ p q₀ : Pass} {a₀ : α}
    (hp : Tracks line keys ms p₀ p) (h : m₀ p₀ = .ok a₀ q₀) :
    ∃ a q, m p = .ok a q ∧ Tracks line keys ms q₀ q ∧ R (seen p) a₀ a
  error {keys : List String} {ms : Multiset M} {p₀ p q₀ : Pass} {e : CompileError}
    (hp : Tracks line keys ms p₀ p) (h : m₀ p₀ = .error e q₀) : ∃ q, m p = .error e q

namespace Simulates

variable {m₀ m : PassM α} {seen : Pass → O} {R R' : O → α → α → Prop}

theorem pure {a₀ a : α} (h : ∀ p, R (seen p) a₀ a) :
    Simulates line (Pure.pure a₀ : PassM α) (Pure.pure a) seen R := by
  refine ⟨?_, nofun⟩
  rintro keys ms p₀ p _ _ hp ⟨⟩
  exact ⟨a, p, rfl, hp, h p⟩

theorem throw {error : CompileError} : Simulates line (throw error) (throw error) seen R := by
  refine ⟨nofun, ?_⟩
  rintro keys ms p₀ p _ _ hp ⟨⟩
  exact ⟨p, rfl⟩

theorem mono (h : Simulates line m₀ m seen R) (himp : ∀ x a₀ a, R x a₀ a → R' x a₀ a) :
    Simulates line m₀ m seen R' := by
  refine ⟨fun hp h₀ ↦ ?_, h.error⟩
  obtain ⟨a, q, hrun, hq, hR⟩ := h.ok hp h₀
  exact ⟨a, q, hrun, hq, himp _ _ _ hR⟩

/-- Going on with a computation that nothing is seen of. -/
theorem bind {S : O → β → β → Prop} {f₀ f : α → PassM β} (h : Simulates line m₀ m seen R)
    (hf : ∀ x a₀ a, R x a₀ a → Simulates line (f₀ a₀) (f a) (fun _ ↦ ()) fun _ ↦ S x) :
    Simulates line (m₀ >>= f₀) (m >>= f) seen S := by
  constructor
  · intro keys ms p₀ p q₀ b₀ hp h₀
    obtain ⟨a₀, r₀, hm₀, hf₀⟩ := PassM.of_bind_ok h₀
    obtain ⟨a, r, hm, hr, hR⟩ := h.ok hp hm₀
    obtain ⟨b, q, hfa, hq, hS⟩ := (hf _ a₀ a hR).ok hr hf₀
    exact ⟨b, q, (PassM.bind_ok hm f).trans hfa, hq, hS⟩
  · intro keys ms p₀ p q₀ e hp h₀
    rcases PassM.of_bind_error h₀ with hm₀ | ⟨a₀, r₀, hm₀, hf₀⟩
    · obtain ⟨q, hm⟩ := h.error hp hm₀
      exact ⟨q, PassM.bind_error hm f⟩
    · obtain ⟨a, r, hm, hr, hR⟩ := h.ok hp hm₀
      obtain ⟨q, hfa⟩ := (hf _ a₀ a hR).error hr hf₀
      exact ⟨q, (PassM.bind_ok hm f).trans hfa⟩

end Simulates

end

/-! ## Recipes -/

namespace Recipe

section

variable {α β : Type} {indent : String} {n : Neighbours} {t : Traces} {b : Block}

theorem trace_bind (r : Recipe α) (f : α → Recipe β) {p q : Pass} {a : α}
    (h : r.run indent n p = .ok a q) : (r >>= f).trace indent n t b p =
      r.trace indent n t b p ++ (f a).trace indent n t b q := by
  induction r generalizing p with
  | done a' =>
    cases h
    rfl
  | fail e => cases h
  | ask request next ih =>
    obtain ⟨answer, p', hrespond, hrest⟩ := PassM.of_bind_ok h
    change (ask request fun answer ↦ next answer >>= f).trace indent n t b p = _
    simp only [trace, EStateM.run, hrespond]
    rw [ih answer hrest, List.append_assoc, List.cons_append]
  | hoist name code next ih =>
    obtain ⟨whole, p', hfinish, hrest⟩ := PassM.of_bind_ok h
    change (hoist name code (next >>= f)).trace indent n t b p = _
    simp only [trace, EStateM.run, hfinish]
    rw [ih hrest, List.append_assoc, List.cons_append]

theorem log_bind (r : Recipe α) (f : α → Recipe β) {p q : Pass} {a : α}
    (h : r.run indent n p = .ok a q) :
    (r >>= f).log indent n p = r.log indent n p ++ (f a).log indent n q := by
  induction r generalizing p with
  | done a' =>
    cases h
    rfl
  | fail e => cases h
  | ask request next ih =>
    obtain ⟨answer, p', hrespond, hrest⟩ := PassM.of_bind_ok h
    change (ask request fun answer ↦ next answer >>= f).log indent n p = _
    simp only [log, EStateM.run, hrespond]
    rw [ih answer hrest, List.cons_append]
  | hoist name code next ih =>
    obtain ⟨whole, p', hfinish, hrest⟩ := PassM.of_bind_ok h
    change (hoist name code (next >>= f)).log indent n p = _
    simp only [log, EStateM.run, hfinish]
    rw [ih hrest, List.cons_append]

end

variable {M α β : Type} {line : M → List Char} {c₀ c : Compiler} {b : Block}
  {r₀ r : Recipe α} {R R' : List Event → List Exchange → α → α → Prop}

/-- The recipe of a block with snippets does beside the one without what is seen by its events and
its exchanges. -/
def Simulates (line : M → List Char) (c₀ c : Compiler) (b : Block) (r₀ r : Recipe α)
    (R : List Event → List Exchange → α → α → Prop) : Prop :=
  Turtle.Simulates line (r₀.run c₀.options.indent (c₀.neighbours b))
    (r.run c.options.indent (c.neighbours b))
    (fun p ↦ (r.trace c.options.indent (c.neighbours b) (c.traces b) b p,
      r.log c.options.indent (c.neighbours b) p)) fun x ↦ R x.1 x.2

namespace Simulates

theorem pure {a₀ a : α} (h : R [] [] a₀ a) :
    Simulates line c₀ c b (Pure.pure a₀) (Pure.pure a) R := Turtle.Simulates.pure fun _ ↦ h

theorem mono (h : Simulates line c₀ c b r₀ r R)
    (himp : ∀ events log a₀ a, R events log a₀ a → R' events log a₀ a) :
    Simulates line c₀ c b r₀ r R' := Turtle.Simulates.mono h fun x ↦ himp x.1 x.2

theorem bind {S : List Event → List Exchange → β → β → Prop} {f₀ f : α → Recipe β}
    (h : Simulates line c₀ c b r₀ r R) (hf : ∀ events log a₀ a, R events log a₀ a →
      Simulates line c₀ c b (f₀ a₀) (f a) fun events' log' ↦ S (events ++ events') (log ++ log')) :
    Simulates line c₀ c b (r₀ >>= f₀) (r >>= f) S := by
  constructor
  · intro keys ms p₀ p q₀ b₀ hp h₀
    rw [run_bind] at h₀
    obtain ⟨a₀, s₀, hr₀, hf₀⟩ := PassM.of_bind_ok h₀
    obtain ⟨a, s, hr, hs, hR⟩ := h.ok hp hr₀
    obtain ⟨b', q, hfa, hq, hS⟩ := (hf _ _ a₀ a hR).ok hs hf₀
    refine ⟨b', q, ?_, hq, ?_⟩
    · rw [run_bind, PassM.bind_ok hr, hfa]
    · simp only [trace_bind r f hr, log_bind r f hr]
      exact hS
  · intro keys ms p₀ p q₀ e hp h₀
    rw [run_bind] at h₀ ⊢
    rcases PassM.of_bind_error h₀ with hr₀ | ⟨a₀, s₀, hr₀, hf₀⟩
    · obtain ⟨q, hr⟩ := h.error hp hr₀
      exact ⟨q, PassM.bind_error hr _⟩
    · obtain ⟨a, s, hr, hs, hR⟩ := h.ok hp hr₀
      obtain ⟨q, hfa⟩ := (hf _ _ a₀ a hR).error hs hf₀
      exact ⟨q, (PassM.bind_ok hr _).trans hfa⟩

/-- A request is answered side by side. -/
theorem answer {q : Request} {S : List Event → String → String → Prop}
    (h : Turtle.Simulates line (respond c₀.options.indent (c₀.neighbours b) q)
      (respond c.options.indent (c.neighbours b) q) (nested (c.traces b) q) S) :
    Simulates line c₀ c b (answer q) (answer q) fun events log s₀ s ↦
      ∃ below, events = below ++ [.exchange b (.answered q s)] ∧ log = [.answered q s] ∧
        S below s₀ s := by
  constructor
  · intro keys ms p₀ p q₀ s₀ hp h₀
    obtain ⟨s₀', r₀, hrespond₀, hpure⟩ := PassM.of_bind_ok h₀
    cases hpure
    obtain ⟨s, r, hrespond, hr, hS⟩ := h.ok hp hrespond₀
    refine ⟨s, r, PassM.bind_ok hrespond _, hr, nested (c.traces b) q p, ?_, ?_, hS⟩
    · simp only [Recipe.answer, trace, EStateM.run, hrespond]
    · simp only [Recipe.answer, log, EStateM.run, hrespond]
  · intro keys ms p₀ p q₀ e hp h₀
    rcases PassM.of_bind_error h₀ with hrespond₀ | ⟨_, _, -, hpure⟩
    · obtain ⟨r, hrespond⟩ := h.error hp hrespond₀
      exact ⟨r, PassM.bind_error hrespond _⟩
    · cases hpure

end Simulates

end Recipe

/-! ## Neighbours -/

/-- Some code into which snippets are woven.  Where nothing is, nothing fires, and what fires is
among some blocks. -/
structure Grown (snippet : Site → String) (o : Options) (w : Workspace) (blocks : List Block)
    (events : List Event) (s₀ s : String) : Prop where
  woven : Woven (snippetLine snippet) (Firing.allMarks (firings o w events)) s₀ s
  silent : s₀ = "" → firings o w events = []
  within : (↑((firings o w events).map (·.block)) : Multiset Block) ≤ ↑blocks

/-- The compiler without snippets, and the one with them. -/
abbrev Compiler.bare (o : Options) : Compiler := { options := o.bare }

abbrev Compiler.fitted (o : Options) (snippet : Site → String) : Compiler :=
  { options := o.fitted snippet }

section

variable {snippet : Site → String} {o : Options} {w : Workspace} {blocks : List Block}
  {events : List Event} {s₀ s : String}

theorem Grown.empty : Grown snippet o w [] [] "" "" := ⟨.empty, fun _ ↦ rfl, le_refl _⟩

theorem Grown.eq_empty (h : Grown snippet o w blocks events s₀ s) (hs₀ : s₀ = "") : s = "" := by
  have hwoven := h.woven
  rw [h.silent hs₀, Firing.allMarks_nil] at hwoven
  rw [hwoven.eq_of_zero, hs₀]

theorem eq_empty_of_prefixLines {p : String} (h : prefixLines p s = "") : s = "" := by
  have hlist := congrArg String.toList h
  rw [prefixLines, String.toList_ofList, Text.prefixLines] at hlist
  have hhead := Text.head?_prefixRest p.toList s.toList
  rw [(List.append_eq_nil_iff.1 hlist).2] at hhead
  exact String.toList_eq_nil_iff.1 (List.head?_eq_none_iff.1 hhead.symm)

/-- What is compiled around a block does the same side by side. -/
structure NeighboursSimulate (snippet : Site → String) (o : Options) (w : Workspace) (b : Block) :
    Prop where
  value : ∀ input outer, Simulates (snippetLine snippet) ((Compiler.bare o).value b input outer)
    ((Compiler.fitted o snippet).value b input outer)
    (((Compiler.fitted o snippet).traces b).input input)
    fun events s₀ s ↦ s = s₀ ∧ firings o w events = []
  statements : ∀ input, Simulates (snippetLine snippet)
    ((Compiler.bare o).chain (b.target? input))
    ((Compiler.fitted o snippet).chain (b.target? input))
    (((Compiler.fitted o snippet).traces b).input input) (Grown snippet o w (b.under input))
  following : Simulates (snippetLine snippet) ((Compiler.bare o).chain b.next)
    ((Compiler.fitted o snippet).chain b.next) ((Compiler.fitted o snippet).traces b).following
    (Grown snippet o w b.behind)

variable {b : Block} {α : Type}

/-- Recipes of a block, side by side. -/
abbrev RecipesSimulate (snippet : Site → String) (o : Options) (b : Block) (r₀ r : Recipe α)
    (R : List Event → List Exchange → α → α → Prop) : Prop :=
  Recipe.Simulates (snippetLine snippet) (Compiler.bare o) (Compiler.fitted o snippet) b r₀ r R

namespace NeighboursSimulate

variable (h : NeighboursSimulate snippet o w b)
include h

/-- A request for a value or a name has the same answer. -/
theorem respond {q : Request} (hq : q.IsFlat) : Simulates (snippetLine snippet)
    (Recipe.respond (Compiler.bare o).options.indent ((Compiler.bare o).neighbours b) q)
    (Recipe.respond (Compiler.fitted o snippet).options.indent
      ((Compiler.fitted o snippet).neighbours b) q)
    (Recipe.nested ((Compiler.fitted o snippet).traces b) q)
    fun events s₀ s ↦ s = s₀ ∧ firings o w events = [] := by
  cases q with
  | value input outer => exact h.value input outer
  | body input => exact hq.elim
  | «variable» nameOrId =>
    refine ⟨?_, nofun⟩
    rintro keys ms p₀ p _ _ hp ⟨⟩
    obtain ⟨heq, hq⟩ := hp.name .variable nameOrId
    exact ⟨_, _, rfl, hq, heq.symm, rfl⟩
  | procedure name =>
    refine ⟨?_, nofun⟩
    rintro keys ms p₀ p _ _ hp ⟨⟩
    obtain ⟨heq, hq⟩ := hp.name .procedure name
    exact ⟨_, _, rfl, hq, heq.symm, rfl⟩
  | helper key lines =>
    refine ⟨?_, nofun⟩
    rintro keys ms p₀ p _ _ hp ⟨⟩
    obtain ⟨heq, hq⟩ := hp.helper o.indent hq
    exact ⟨_, _, rfl, hq, heq.symm, rfl⟩

/-- A recipe that needs no statements does the same. -/
theorem asks {P : Request → Prop} {Q : α → Prop} (hP : ∀ q, P q → q.IsFlat) {r : Recipe α}
    (hr : r.Asks P Q) : RecipesSimulate snippet o b r r fun events log a₀ a ↦
      a = a₀ ∧ firings o w events = [] ∧ Q a ∧ ∀ x ∈ log, ∃ q s, x = .answered q s ∧ P q := by
  induction r with
  | done a => exact .pure ⟨rfl, rfl, hr, nofun⟩
  | fail e => exact Simulates.throw
  | ask q next ih =>
    change RecipesSimulate snippet o b (Recipe.answer q >>= next) (Recipe.answer q >>= next) _
    refine (Recipe.Simulates.answer (h.respond (hP q hr.1))).bind ?_
    rintro _ _ _ s ⟨below, rfl, rfl, rfl, hbelow⟩
    refine (ih s (hr.2 s)).mono ?_
    rintro events log a₀ a ⟨heq, hevents, hQ, hlog⟩
    refine ⟨heq, ?_, hQ, ?_⟩
    · rw [List.append_assoc, firings_append, hbelow, List.singleton_append, firings_exchange,
        hevents, List.nil_append]
    · exact List.forall_mem_cons.2 ⟨⟨q, s, rfl, hr.1⟩, hlog⟩
  | hoist name code next ih => exact hr.elim

/-- A body grows by its snippets and is indented. -/
theorem body (hindent : ∀ c ∈ o.indent.toList, Text.isGap c) (input : String) :
    RecipesSimulate snippet o b (Recipe.body input) (Recipe.body input) fun events log s₀ s ↦
      Grown snippet o w (b.under input) events s₀ s ∧ log = [.answered (.body input) s] := by
  refine (Recipe.Simulates.answer (q := .body input)
    (S := Grown snippet o w (b.under input)) ?_).mono ?_
  · refine (h.statements input).bind fun events s₀ s hgrown ↦ .pure fun _ ↦ ?_
    by_cases hs₀ : s₀ = ""
    · have hs := hgrown.eq_empty hs₀
      rw [hs₀, hs] at hgrown ⊢
      exact hgrown
    · have hs := hgrown.woven.ne_empty hs₀
      rw [if_neg (by simpa using hs₀), if_neg (by simpa using hs)]
      exact ⟨hgrown.woven.indent hindent hs₀, fun heq ↦ absurd (eq_empty_of_prefixLines heq) hs₀,
        hgrown.within⟩
  · rintro _ _ s₀ s ⟨below, rfl, rfl, hgrown⟩
    have hfirings : firings o w (below ++ [.exchange b (.answered (.body input) s)]) =
        firings o w below := by simp
    exact ⟨⟨hfirings ▸ hgrown.woven, hfirings ▸ hgrown.silent, hfirings ▸ hgrown.within⟩, rfl⟩

end NeighboursSimulate

end

end Turtle

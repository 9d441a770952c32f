import Turtle.Proofs.Compile.Declared
import Turtle.Proofs.Compile.Placement

/-!
# Interference of definitions

Whatever a host asks for in a pass, the definitions are those of the owners that are in the table.
So the program begins with what the host has registered, in the order in which it has done so, unless
a procedure replaces a helper.  The names of helpers are told apart from each other and from all
other names in any case.
-/

namespace Turtle

open Errand (owners)

/-! ## What errands leave behind -/

/-- The name of a helper that has been asked for. -/
def Pass.helperName (helpers : List (String × String)) (key : String) : String :=
  (helpers.lookup key).getD ""

theorem Pass.helperName_cons_self (key chosen : String) (helpers : List (String × String)) :
    helperName ((key, chosen) :: helpers) key = chosen := by
  rw [helperName, List.lookup_cons_self, Option.getD_some]

theorem Pass.helperName_cons_of_ne {key key' : String} (h : key' ≠ key) (chosen : String)
    (helpers : List (String × String)) :
    helperName ((key, chosen) :: helpers) key' = helperName helpers key' := by
  rw [helperName, helperName, List.lookup_cons, beq_eq_false_iff_ne.2 h]

/-- The answer to an errand. -/
def Errand.answer (indent : String) (p : Pass) : Errand → Reply × Pass
  | helper key lines => (p.helper indent key lines).map .text id
  | define procedure code => (.done, p.define procedure code)
  | name kind nameOrId => (p.name kind nameOrId).map .text id

/-- The definitions of a pass are those of its owners. -/
structure Registered (indent : String) (errands : List Errand) (p : Pass) : Prop where
  helpers : ∀ key, (p.helpers.lookup key).isSome ↔ .helper key ∈ owners errands
  definitions : p.definitions = (Owner.place (owners errands)).map fun o ↦
    (o.key, o.text indent (Pass.helperName p.helpers) errands)

namespace Registered

variable {indent : String} {errands : List Errand} {p : Pass}

/-- An errand that leaves all definitions as they are. -/
theorem snoc (h : Registered indent errands p) {q : Pass} {e : Errand}
    (howners : owners (errands ++ [e]) = owners errands)
    (hother : ∀ o, e.owner? = some o → ¬ o.isProcedure) (hhelpers : q.helpers = p.helpers)
    (hdefinitions : q.definitions = p.definitions) : Registered indent (errands ++ [e]) q := by
  refine ⟨fun key ↦ ?_, ?_⟩
  · rw [howners, hhelpers]
    exact h.helpers key
  · rw [hdefinitions, h.definitions, howners, hhelpers]
    refine List.map_congr_left fun o ho ↦ ?_
    rw [Owner.text_concat (Owner.mem_of_mem_place ho) (fun hprocedure howner ↦
      hother o howner hprocedure) fun _ _ ↦ rfl]

/-- A helper that is asked for for the first time. -/
theorem snoc_new (h : Registered indent errands p) {q : Pass} {key chosen : String}
    {lines : List String} (hnew : .helper key ∉ owners errands)
    (hhelpers : q.helpers = (key, chosen) :: p.helpers)
    (hdefinitions : q.definitions =
      p.definitions ++ [(key, Pass.helperText indent lines chosen)]) :
    Registered indent (errands ++ [.helper key lines]) q := by
  have howners : owners (errands ++ [.helper key lines]) = owners errands ++ [.helper key] :=
    Errand.owners_concat_of_notMem rfl hnew
  have hne : ∀ key', .helper key' ∈ owners errands → key' ≠ key := by
    rintro key' hkey' rfl
    exact hnew hkey'
  have hkept : p.definitions = (Owner.place (owners errands)).map fun o ↦
      (o.key, o.text indent (Pass.helperName q.helpers) (errands ++ [.helper key lines])) := by
    rw [h.definitions, hhelpers]
    refine List.map_congr_left fun o ho ↦ ?_
    rw [Owner.text_concat (Owner.mem_of_mem_place ho) _ fun key' hkey' ↦
      Pass.helperName_cons_of_ne (hne key' hkey') chosen p.helpers]
    rintro hprocedure ⟨⟩
    cases hprocedure
  have hlast : Owner.text indent (Pass.helperName q.helpers) (errands ++ [.helper key lines])
      (.helper key) = Pass.helperText indent lines chosen := by
    rw [Owner.text, Errand.firstLines_concat_helper hnew, hhelpers, Pass.helperName_cons_self]
  have hsettle : Owner.settle (Owner.place (owners errands)) (.helper key) =
      Owner.place (owners errands) ++ [.helper key] := rfl
  refine ⟨fun key' ↦ ?_, ?_⟩
  · rw [howners, hhelpers, List.mem_append, List.mem_singleton, ← h.helpers, List.lookup_cons,
      Owner.helper.injEq]
    by_cases hkey : key' = key
    · simp [hkey]
    · rw [beq_eq_false_iff_ne.2 hkey, or_iff_left hkey]
  · rw [howners, Owner.place_concat, hsettle, List.map_append, List.map_singleton, hlast, ← hkept]
    exact hdefinitions

theorem snoc_helper (h : Registered indent errands p) (key : String) (lines : List String) :
    Registered indent (errands ++ [.helper key lines]) (p.helper indent key lines).2 := by
  obtain ⟨chosen, hsome, heq⟩ | ⟨hnone, chosen, -, -, heq⟩ := p.helper_cases indent key lines
  · have hmem : .helper key ∈ owners errands := by
      rw [← h.helpers, hsome]
      rfl
    rw [heq]
    refine h.snoc (Errand.owners_concat_of_mem rfl hmem) ?_ rfl rfl
    rintro _ ⟨⟩
    nofun
  · have hnew : .helper key ∉ owners errands := by
      rw [← h.helpers, hnone]
      nofun
    rw [heq]
    exact h.snoc_new hnew rfl rfl

theorem snoc_define (h : Registered indent errands p) (procedure code : String) :
    Registered indent (errands ++ [.define procedure code]) (p.define procedure code) := by
  refine ⟨fun key ↦ ?_, ?_⟩
  · have hmem : .helper key ∈ owners (errands ++ [.define procedure code]) ↔
        .helper key ∈ owners errands := by
      simp [Errand.mem_owners, Errand.owner?, or_and_right, exists_or]
    rw [hmem]
    exact h.helpers key
  · have htext : Owner.text indent (Pass.helperName p.helpers)
        (errands ++ [.define procedure code]) (.procedure procedure) = code := by
      rw [Owner.text, Errand.lastCode_concat, Errand.code?, if_pos rfl, Option.getD_some]
    rw [Errand.place_owners_define, Pass.define, h.definitions]
    have hothers : ∀ a ∈ Owner.place (owners errands), a ≠ .procedure procedure →
        a.text indent (Pass.helperName p.helpers) (errands ++ [.define procedure code]) =
          a.text indent (Pass.helperName p.helpers) errands := fun a ha hne ↦
      Owner.text_concat (Owner.mem_of_mem_place ha)
        (fun _ howner ↦ hne (Option.some.inj howner).symm) fun _ _ ↦ rfl
    have hput := Owner.put_enter (Owner.orderly_place (Errand.nodup_owners errands)) rfl hothers
    rw [htext] at hput
    exact hput

/-- What one errand preserves. -/
theorem step (h : Registered indent errands p) (e : Errand) :
    Registered indent (errands ++ [e]) (e.answer indent p).2 := by
  cases e with
  | helper key lines => exact h.snoc_helper key lines
  | define procedure code => exact h.snoc_define procedure code
  | name kind nameOrId => exact h.snoc (Errand.owners_concat_of_none rfl) nofun rfl rfl

theorem start (hdefinitions : p.definitions = []) (hhelpers : p.helpers = []) :
    Registered indent [] p := by
  refine ⟨fun key ↦ ?_, ?_⟩
  · rw [hhelpers]
    simp [owners]
  · rw [hdefinitions]
    rfl

theorem program_eq (h : Registered indent errands p) (code : String) :
    p.program code = Owner.program indent (Pass.helperName p.helpers) errands
      (Owner.place (owners errands)) code := by
  rw [Pass.program, h.definitions, List.map_map]
  rfl

theorem mem_helpers (h : Registered indent errands p) {key : String}
    (hkey : .helper key ∈ owners errands) :
    (key, Pass.helperName p.helpers key) ∈ p.helpers := by
  obtain ⟨chosen, hchosen⟩ := Option.isSome_iff_exists.1 ((h.helpers key).2 hkey)
  rw [Pass.helperName, hchosen, Option.getD_some]
  exact Table.mem_of_lookup hchosen

/-- Helpers of different keys have names that Logo tells apart. -/
theorem lower_ne (h : Registered indent errands p) (hsound : p.Sound) {key key' : String}
    (hkey : .helper key ∈ owners errands) (hkey' : .helper key' ∈ owners errands)
    (hne : key ≠ key') :
    lower (Pass.helperName p.helpers key) ≠ lower (Pass.helperName p.helpers key') := fun heq ↦
  hne (hsound.apart (key, _) (h.mem_helpers hkey) (key', _) (h.mem_helpers hkey') heq)

/-- Logo tells the name of a helper from whatever else has a name. -/
theorem lower_ne_given (h : Registered indent errands p) (hsound : p.Sound) {key : String}
    (hkey : .helper key ∈ owners errands) {given : NameKind × String} {chosen : String}
    (hgiven : p.names.given.lookup given = some chosen) :
    lower (Pass.helperName p.helpers key) ≠ lower chosen :=
  hsound.foreign (key, _) (h.mem_helpers hkey) (given, chosen) (Table.mem_of_lookup hgiven)

end Registered

/-! ## What a host is told -/

/-- The helpers and the names that a host has been told are those of the pass. -/
structure Truthful (answers : List (Errand × Reply)) (p : Pass) : Prop where
  helper : ∀ key lines reply, (.helper key lines, reply) ∈ answers →
    ∃ chosen, reply = .text chosen ∧ p.helpers.lookup key = some chosen
  name : ∀ kind nameOrId reply, (.name kind nameOrId, reply) ∈ answers →
    ∃ chosen key, reply = .text chosen ∧ p.names.given.lookup key = some chosen

/-- A helper keeps its name. -/
theorem Errand.lookup_helpers (indent : String) (p : Pass) (e : Errand) {key chosen : String}
    (h : p.helpers.lookup key = some chosen) :
    (e.answer indent p).2.helpers.lookup key = some chosen := by
  cases e with
  | define | name => exact h
  | helper key' lines =>
    obtain ⟨chosen', -, heq⟩ | ⟨hnone, chosen', -, -, heq⟩ := p.helper_cases indent key' lines
    · rw [answer, heq]
      exact h
    · have hne : key ≠ key' := by
        rintro rfl
        rw [hnone] at h
        cases h
      rw [answer, heq]
      exact (List.lookup_cons.trans (by rw [beq_eq_false_iff_ne.2 hne])).trans h

/-- A helper has the name that was the answer. -/
theorem Pass.lookup_helper (indent : String) (p : Pass) (key : String) (lines : List String) :
    (p.helper indent key lines).2.helpers.lookup key = some (p.helper indent key lines).1 := by
  obtain ⟨chosen, hsome, heq⟩ | ⟨-, chosen, -, -, heq⟩ := p.helper_cases indent key lines
  · rw [heq]
    exact hsome
  · rw [heq]
    exact List.lookup_cons_self

theorem Errand.follows_answer (indent : String) (p : Pass) (e : Errand) :
    p.Follows (e.answer indent p).2 := by
  cases e with
  | helper key lines => exact .helper indent p key lines
  | define procedure code => exact .define p procedure code
  | name kind nameOrId => exact .name p kind nameOrId

/-- What one errand preserves. -/
theorem Truthful.step {answers : List (Errand × Reply)} {p : Pass} (h : Truthful answers p)
    (indent : String) (e : Errand) :
    Truthful (answers ++ [(e, (e.answer indent p).1)]) (e.answer indent p).2 := by
  constructor
  · intro key lines reply hmem
    rcases List.mem_append.1 hmem with hmem | hmem
    · obtain ⟨chosen, hreply, hlookup⟩ := h.helper key lines reply hmem
      exact ⟨chosen, hreply, e.lookup_helpers indent p hlookup⟩
    · obtain ⟨rfl, rfl⟩ := Prod.mk.inj (List.mem_singleton.1 hmem)
      exact ⟨_, rfl, p.lookup_helper indent key lines⟩
  · intro kind nameOrId reply hmem
    rcases List.mem_append.1 hmem with hmem | hmem
    · obtain ⟨chosen, key, hreply, hlookup⟩ := h.name kind nameOrId reply hmem
      exact ⟨chosen, key, hreply, (e.follows_answer indent p).names.grows.given _ _ hlookup⟩
    · obtain ⟨rfl, rfl⟩ := Prod.mk.inj (List.mem_singleton.1 hmem)
      exact ⟨_, _, rfl, p.names.lookup_get kind nameOrId⟩

namespace Session

/-- What a host is told about its errands. -/
def answers (s : Session) : List Errand → List (Errand × Reply)
  | [] => []
  | e :: rest => (e, (s.perform e.call).1) :: (s.perform e.call).2.answers rest

theorem answers_concat (s : Session) (errands : List Errand) (e : Errand) :
    s.answers (errands ++ [e]) =
      s.answers errands ++ [(e, ((s.after (errands.map Errand.call)).perform e.call).1)] := by
  induction errands generalizing s with
  | nil => rfl
  | cons first rest ih => exact congrArg _ (ih _)

theorem perform_errand (s : Session) (e : Errand) :
    s.perform e.call = ((e.answer s.compiler.options.indent s.pass).1,
      { s with pass := (e.answer s.compiler.options.indent s.pass).2 }) := by
  cases e <;> rfl

/-- What errands preserve. -/
theorem run_errands {s : Session} (hdefinitions : s.pass.definitions = [])
    (hhelpers : s.pass.helpers = []) (errands : List Errand) :
    let closed := s.after (errands.map Errand.call)
    closed.compiler = s.compiler ∧ s.pass.Follows closed.pass ∧
      Registered s.compiler.options.indent errands closed.pass ∧
        Truthful (s.answers errands) closed.pass := by
  induction errands using List.reverseRecOn with
  | nil => exact ⟨rfl, .refl _, .start hdefinitions hhelpers, nofun, nofun⟩
  | append_singleton errands e ih =>
    obtain ⟨hcompiler, hfollows, hregistered, htruthful⟩ := ih
    have hafter : s.after ((errands ++ [e]).map Errand.call) =
        ((s.after (errands.map Errand.call)).perform e.call).2 := by
      rw [List.map_append, List.map_singleton, after, List.foldl_concat, after]
    rw [hafter, answers_concat, perform_errand, hcompiler]
    exact ⟨rfl, hfollows.trans (e.follows_answer _ _), hregistered.step e, htruthful.step _ e⟩

/-- Whatever helpers, procedures and names a host asks for in a pass, the program begins with a
definition for each helper and each procedure that has found a place.  All of them have one, in the
order in which the host came to them, exactly if no procedure is defined for the first time after a
helper under its key was asked for.  The lines that came first for a helper count, and the code that
came last for a procedure.  Every request for a helper is answered with the name that its definition
has, and Logo tells this name from those of all other helpers, from every answer to a request for a
name, and from the names of all declarations. -/
theorem finish_errands (s : Session) (w : Workspace) (errands : List Errand) (code : String) :
    let opened := s.start w
    let finished := ((opened.after (errands.map Errand.call)).finish code).1
    ∃ nameOf : String → String,
      let program := Owner.program s.compiler.options.indent nameOf errands
      finished = program (Owner.place (owners errands)) code ∧
      (finished = program (owners errands) code ↔ Owner.Orderly (owners errands)) ∧
      (∀ key lines reply, (.helper key lines, reply) ∈ opened.answers errands →
        reply = .text (nameOf key)) ∧
      (∀ key key', .helper key ∈ owners errands → .helper key' ∈ owners errands → key ≠ key' →
        lower (nameOf key) ≠ lower (nameOf key')) ∧
      (∀ kind nameOrId reply, (.name kind nameOrId, reply) ∈ opened.answers errands →
        ∃ chosen, reply = .text chosen ∧
          ∀ key, .helper key ∈ owners errands → lower (nameOf key) ≠ lower chosen) ∧
      ∀ declared chosen, w.start.names.given.lookup declared = some chosen →
        ∀ key, .helper key ∈ owners errands → lower (nameOf key) ≠ lower chosen := by
  intro opened finished
  obtain ⟨-, hfollows, hregistered, htruthful⟩ := opened.run_errands rfl rfl errands
  have hsound := hfollows.sound w.sound_start
  have hfinished : finished = _ := hregistered.program_eq code
  refine ⟨_, hfinished, ?_, ?_, ?_, ?_, ?_⟩
  · rw [hfinished]
    exact Owner.program_place_iff _ _ _ _ _
  · intro key lines reply hmem
    obtain ⟨chosen, rfl, hchosen⟩ := htruthful.helper key lines reply hmem
    rw [Pass.helperName, hchosen, Option.getD_some]
  · exact fun key key' hkey hkey' ↦ hregistered.lower_ne hsound hkey hkey'
  · intro kind nameOrId reply hmem
    obtain ⟨chosen, given, rfl, hgiven⟩ := htruthful.name kind nameOrId reply hmem
    exact ⟨chosen, rfl, fun key hkey ↦ hregistered.lower_ne_given hsound hkey hgiven⟩
  · intro declared chosen hlookup key hkey
    have hgiven := hfollows.names.grows.given _ _ hlookup
    exact hregistered.lower_ne_given hsound hkey hgiven

/-- The lines of a helper without instructions. -/
def idleLines : List String := ["to " ++ Pass.namePlaceholder, "end"]

/-- A procedure that is defined twice, and a helper under its key that is asked for in between. -/
def crowded : List Errand :=
  [.define "f" "to f\nend", .helper "%f" idleLines, .name .procedure "f", .helper "sum" idleLines,
    .helper "%f" [], .define "f" "to f\n  _25f\nend"]

theorem finish_errands_crowded :
    owners crowded = [.procedure "f", .helper "%f", .helper "sum"] ∧
    ∃ nameOf, ((((ofOptions {}).start {}).after (crowded.map Errand.call)).finish "f\n").1 =
      Owner.program "  " nameOf crowded (owners crowded) "f\n" := by
  obtain ⟨nameOf, -, h, -⟩ := finish_errands (ofOptions {}) {} crowded "f\n"
  exact ⟨by decide +kernel, nameOf, h.2 (by decide +kernel)⟩

/-- A helper, and after it the procedure of its key. -/
def overtaken : List Errand := [.helper "%f" idleLines, .define "f" "to f\nend"]

/-- A program that calls the helper, without its definition. -/
theorem finish_overtaken :
    let opened := (ofOptions {}).start {}
    let finished := ((opened.after (overtaken.map Errand.call)).finish "_25f\n").1
    (opened.perform (.act (.helper "%f" idleLines))).1 = .text "_25f" ∧
      finished = "to f\nend\n\n\n_25f\n" ∧
      Owner.program "  " (fun _ ↦ "_25f") overtaken (owners overtaken) "_25f\n" =
        "to _25f\nend\n\nto f\nend\n\n\n_25f\n" ∧
      finished ≠ Owner.program "  " (fun _ ↦ "_25f") overtaken (owners overtaken) "_25f\n" := by
  have hname : (({} : Workspace).start.names.fresh "%f").1 = "_25f" := by decide +kernel
  refine ⟨?_, ?_, ?_, ?_⟩
  · rw [perform_helper _ rfl]
    exact congrArg Reply.text hname
  all_goals decide +kernel

end Session

end Turtle

import Turtle.Proofs.Compile.Heading
import Turtle.Proofs.Compile.Trace
import Turtle.Proofs.Emitter.Spelling

/-!
# Emitters of procedures

What the exchanges of an emitter with the pass tell: a definition asks for the identifier of its
name first and registers a text that opens with it last, a call begins with the identifier of the
procedure that it calls, and no other emitter registers anything.
-/

namespace Turtle

namespace Recipe

variable {α β : Type} {data : String → Prop} {Q : α → Prop} {log : List Exchange}

/-- What a recipe yields that goes on with the result of another one. -/
theorem Yields.of_bind {r : Recipe α} {f : α → Recipe β} {b : β} (h : (r >>= f).Yields log b) :
    ∃ log₁ log₂ a, log = log₁ ++ log₂ ∧ r.Yields log₁ a ∧ (f a).Yields log₂ b := by
  induction r generalizing log with
  | done a => exact ⟨[], log, a, rfl, .done a, h⟩
  | fail e => cases h
  | ask q next ih =>
    cases h with
    | @ask _ _ answer log' _ h =>
      obtain ⟨log₁, log₂, a, rfl, h₁, h₂⟩ := ih answer h
      exact ⟨.answered q answer :: log₁, log₂, a, rfl, h₁.ask, h₂⟩
  | hoist name code next ih =>
    cases h with
    | @hoist _ _ whole _ log' _ h =>
      obtain ⟨log₁, log₂, a, rfl, h₁, h₂⟩ := ih h
      exact ⟨.hoisted name code whole :: log₁, log₂, a, rfl, h₁.hoist, h₂⟩

/-- A recipe that meets a contract has exchanges that do. -/
theorem Meets.of_yields {r : Recipe α} {a : α} (h : r.Meets data Q) (hyields : r.Yields log a)
    (hdata : ∀ q s, .answered q s ∈ log → data s) :
    Q a ∧ ∀ x ∈ log, ∃ q s, x = .answered q s ∧ q.Known := by
  induction hyields with
  | done a => exact ⟨h, nofun⟩
  | @ask q next answer log a _ ih =>
    obtain ⟨hQ, hlog⟩ := ih (h.2 answer (hdata q answer List.mem_cons_self))
      fun q' s hmem ↦ hdata q' s (List.mem_cons_of_mem _ hmem)
    refine ⟨hQ, fun x hx ↦ ?_⟩
    rcases List.mem_cons.1 hx with rfl | hx
    · exact ⟨q, answer, rfl, h.1⟩
    · exact hlog x hx
  | hoist => exact h.elim

/-- A recipe that registers a definition ends with it. -/
def HoistsLast : Recipe α → Prop
  | done _ | fail _ => True
  | ask _ next => ∀ answer, (next answer).HoistsLast
  | hoist _ _ next => ∃ a, next = done a

theorem Meets.hoistsLast_bind {r : Recipe α} (h : r.Meets (fun _ ↦ True) Q) {f : α → Recipe β}
    (hf : ∀ a, (f a).HoistsLast) : (r >>= f).HoistsLast := by
  induction r with
  | done a => exact hf a
  | fail e => trivial
  | ask q next ih => exact fun answer ↦ ih answer (h.2 answer trivial)
  | hoist name code next ih => exact h.elim

theorem Meets.hoistsLast {r : Recipe α} (h : r.Meets (fun _ ↦ True) Q) : r.HoistsLast := by
  rw [← bind_pure r]
  exact h.hoistsLast_bind fun _ ↦ trivial

end Recipe

namespace Head

theorem isDefinition_iff {h : Head} :
    h.isDefinition ↔ h.kind ∈ ["procedures_defreturn", "procedures_defnoreturn"] := by
  simp [isDefinition]

/-- Whether the block calls a procedure. -/
def isCall (h : Head) : Bool :=
  h.kind == "procedures_callreturn" || h.kind == "procedures_callnoreturn"

/-- The name of the procedure that the block calls. -/
def callee (h : Head) : String := h.mutation.callee.getD (h.field "NAME")

end Head

namespace Emitter

open Recipe

/-! ## Definitions -/

/-- The text of a definition of a name. -/
def definitionCode (v : View) (name : String) : Recipe String := do
  let o := v.options
  let snippets := (o.beforeOf v.head.id).getD "" ++ (o.afterOf v.head.id).getD ""
  let opening := if snippets == "" then "" else prefixLines o.indent snippets
  let trap := o.indented (o.trapOf v.head.id)
  let statements ← body "STACK"
  let result ← answer (.value "RETURN" .loose)
  let closing := if statements != "" && result != "" then opening else ""
  let output := if result == "" then "" else o.indent ++ "op " ++ result ++ "\n"
  let params ← v.head.mutation.params.mapM fun param ↦ do return " :" ++ (← variableName param)
  return "to " ++ name ++ String.join params ++ "\n" ++ opening ++ trap ++ statements ++ closing ++
    output ++ "end"

theorem emit_definition (v : View) : (Emitter.definition definitionOf).emit v =
    procedureName (v.field "NAME") >>= fun name ↦
      definitionCode v name >>= fun code ↦ hoist name code (done .hoisted) := by
  change (definitionOf v >>= fun _ ↦ pure Emission.hoisted) = _
  simp only [definitionOf, definitionCode, bind_assoc, pure_bind]
  rfl

theorem join_eq {l : List String} (h : ∀ s ∈ l, ∃ t, s = " " ++ t) :
    String.join l = "" ∨ ∃ t, String.join l = " " ++ t := by
  cases l with
  | nil => exact .inl rfl
  | cons s l =>
    obtain ⟨t, rfl⟩ := h s List.mem_cons_self
    exact .inr ⟨t ++ String.join l, by rw [String.join_cons, String.append_assoc]⟩

theorem opens_join {l : List String} (h : ∀ s ∈ l, ∃ t, s = " " ++ t) (name : String) :
    Opens name ("to " ++ name ++ String.join l ++ "\n") := by
  rcases join_eq h with heq | ⟨t, heq⟩
  · rw [heq]
    exact ⟨'\n', [], by simp, .inr rfl⟩
  · rw [heq]
    exact ⟨' ', (t ++ "\n").toList, by simp, .inl rfl⟩

/-- The text of a definition opens with the name and is spelled with the vocabulary. -/
theorem meets_definitionCode {v : View} {data : String → Prop} (hv : ∀ s, v.Data s → data s)
    {name : String} (hname : data name) :
    (definitionCode v name).Meets data fun code ↦ Opens name code ∧ Written data code := by
  have hparam : ∀ param ∈ v.head.mutation.params,
      (variableName param >>= fun chosen ↦ pure (" :" ++ chosen)).Meets data
        fun s ↦ Written data s ∧ ∃ t, s = " " ++ t := fun param _ ↦
    meets_variable fun chosen hchosen ↦
      ⟨(Written.literal (by decide)).append (.data hchosen), ":" ++ chosen, by
        rw [← String.append_assoc]; rfl⟩
  refine meets_body fun statements hstatements ↦ ?_
  refine ⟨trivial, fun result hresult ↦ meets_mapM hparam fun params hparams ↦ ?_⟩
  have hopening : Written data (if ((v.options.beforeOf v.head.id).getD "" ++
      (v.options.afterOf v.head.id).getD "") == "" then "" else prefixLines v.options.indent
      ((v.options.beforeOf v.head.id).getD "" ++ (v.options.afterOf v.head.id).getD "")) := by
    split
    · exact .empty
    · exact .data (hv _ .surroundingLines)
  have hindent : v.Offers v.head.kind v.options.indent := .indent
  have htrap : v.Offers v.head.kind (v.options.indented (v.options.trapOf v.head.id)) :=
    .snippetLines (by simp [View.snippets])
  constructor
  · have hopens := opens_join (fun s hs ↦ (hparams s hs).2) name
    exact (((((hopens.append _).append _).append _).append _).append _).append _
  · refine (((((((Written.append ?_ (.data hname)).append
      (.join fun s hs ↦ (hparams s hs).1)).append ?_).append hopening).append
      (.data (hv _ (.offered htrap)))).append
      (.data hstatements)).append ?_).append ?_ |>.append ?_
    · exact .literal (by decide)
    · exact .literal (by decide)
    · split
      · exact hopening
      · exact .empty
    · split
      · exact .empty
      · exact (((Written.data (hv _ (.offered hindent))).append (.literal (by decide))).append
          (.data hresult)).append (.literal (by decide))
    · exact .literal (by decide)

/-- What passes while a procedure is defined.  What the definition is written with are the data of
the block and the answers to its requests. -/
theorem yields_definition {v : View} {log : List Exchange} {emission : Emission}
    (h : ((Emitter.definition definitionOf).emit v).Yields log emission) :
    ∃ name log' code whole, log = .answered (.procedure (v.field "NAME")) name ::
        (log' ++ [.hoisted name code whole]) ∧ emission = .hoisted ∧ Opens name code ∧
      (∀ x ∈ log', ∃ q s, x = .answered q s ∧ q.Known) ∧
      ∀ data : String → Prop, (∀ s, v.Data s → data s) → (∀ q s, .answered q s ∈ log → data s) →
        Written data code := by
  rw [emit_definition] at h
  cases h with
  | @ask _ _ name log _ h =>
    obtain ⟨log', _, code, rfl, hcode, hrest⟩ := Yields.of_bind (r := definitionCode v name) h
    cases hrest with
    | @hoist _ _ whole _ _ _ hrest =>
      cases hrest
      have hmeets : (definitionCode v name).Meets (fun _ ↦ True) _ :=
        meets_definitionCode (fun _ _ ↦ trivial) trivial
      obtain ⟨⟨hopens, -⟩, hlog⟩ := hmeets.of_yields hcode fun _ _ _ ↦ trivial
      refine ⟨name, log', code, whole, rfl, rfl, hopens, hlog, fun data hv hdata ↦ ?_⟩
      have hname : data name := hdata _ name List.mem_cons_self
      refine ((meets_definitionCode hv hname).of_yields hcode fun q s hmem ↦ ?_).1.2
      exact hdata q s (List.mem_cons_of_mem _ (List.mem_append_left _ hmem))

/-! ## Calls -/

theorem yields_callText {v : View} {log : List Exchange} {code : String}
    (h : (callText v).Yields log code) :
    ∃ name rest, code = name ++ rest ∧ .answered (.procedure (callee v)) name ∈ log ∧
      ∀ c ∈ rest.toList.head?, c = ' ' := by
  cases h with
  | @ask _ _ name log _ h =>
    obtain ⟨log₁, log₂, arguments, rfl, harguments, hrest⟩ := Yields.of_bind
      (r := (List.range v.head.mutation.params.length).mapM fun i ↦ do
        return " " ++ (← operand ("ARG" ++ toString i) .loose "[]")) h
    cases hrest
    refine ⟨name, String.join arguments, rfl, List.mem_cons_self, ?_⟩
    have hspaced : ∀ s ∈ arguments, ∃ t, s = " " ++ t := by
      refine (Meets.of_yields (meets_mapM_self fun i _ ↦ ?_) harguments fun _ _ _ ↦ trivial).1
      exact ⟨trivial, fun answer _ ↦ ⟨_, rfl⟩⟩
    rcases join_eq hspaced with heq | ⟨t, heq⟩
    · rw [heq]
      exact nofun
    · rw [heq]
      rintro c hc
      simpa using hc.symm

/-- The emitters of calls. -/
def isCall (e : Emitter) : Prop := e = .value call ∨ e = .statement callStatement

/-- What passes while a procedure is called. -/
theorem yields_call {e : Emitter} (he : e.isCall) {v : View} {log : List Exchange}
    {emission : Emission} (h : (e.emit v).Yields log emission) :
    ∃ name rest, emission.text = name ++ rest ∧ .answered (.procedure (callee v)) name ∈ log ∧
      ∀ c ∈ rest.toList.head?, c = ' ' ∨ c = '\n' := by
  rcases he with rfl | rfl
  · obtain ⟨log₁, _, written, rfl, hcall, hdone⟩ := Yields.of_bind h
    cases hdone
    obtain ⟨log₁, _, code, rfl, hcode, hdone⟩ := Yields.of_bind hcall
    cases hdone
    obtain ⟨name, rest, rfl, hmem, hrest⟩ := yields_callText hcode
    exact ⟨name, rest, rfl, by simpa using hmem, fun c hc ↦ .inl (hrest c hc)⟩
  · obtain ⟨log₁, _, written, rfl, hcall, hdone⟩ := Yields.of_bind h
    cases hdone
    obtain ⟨log₁, _, code, rfl, hcode, hdone⟩ := Yields.of_bind hcall
    cases hdone
    obtain ⟨name, rest, rfl, hmem, hrest⟩ := yields_callText hcode
    refine ⟨name, rest ++ "\n", String.append_assoc, by simpa using hmem, fun c hc ↦ ?_⟩
    rw [String.toList_append] at hc
    cases hlist : rest.toList with
    | nil =>
      rw [hlist] at hc
      exact .inr (by simpa using hc.symm)
    | cons d s =>
      rw [hlist] at hc hrest
      exact .inl (hrest c hc)

/-! ## The table -/

theorem standard?_of_isDefinition {h : Head} (hdefinition : h.isDefinition) :
    standard? h.kind = some (.definition definitionOf) := by
  rw [Head.isDefinition, Bool.or_eq_true, beq_iff_eq, beq_iff_eq] at hdefinition
  rcases hdefinition with hkind | hkind
  · rw [hkind]
    rfl
  · rw [hkind]
    rfl

/-- A standard emitter defines a procedure or keeps to the contract. -/
theorem standard?_cases {h : Head} {e : Emitter} (he : standard? h.kind = some e) :
    (h.isDefinition ∧ e = .definition definitionOf) ∨ ¬ h.isDefinition ∧ e.Keeps := by
  by_cases hdefinition : h.isDefinition
  · exact .inl ⟨hdefinition, Option.some.inj (he.symm.trans (standard?_of_isDefinition hdefinition))⟩
  · have hcomposes := composes_standard he (Head.isDefinition_iff.not.1 hdefinition)
    exact .inr ⟨hdefinition, hcomposes.keeps⟩

theorem isCall_of_head {h : Head} (hcall : h.isCall) {e : Emitter}
    (he : standard? h.kind = some e) : e.isCall := by
  rw [Head.isCall, Bool.or_eq_true, beq_iff_eq, beq_iff_eq] at hcall
  rcases hcall with hkind | hkind
  · rw [hkind] at he
    exact .inl (Option.some.inj (he.symm.trans rfl))
  · rw [hkind] at he
    exact .inr (Option.some.inj (he.symm.trans rfl))

theorem hoistsLast_standard {h : Head} {e : Emitter} (he : standard? h.kind = some e) (v : View) :
    (e.emit v).HoistsLast := by
  rcases standard?_cases he with ⟨-, rfl⟩ | ⟨-, hkeeps⟩
  · rw [emit_definition]
    intro name
    exact (meets_definitionCode (fun _ _ ↦ trivial) trivial).hoistsLast_bind
      fun code ↦ ⟨.hoisted, rfl⟩
  · exact (hkeeps v (fun _ ↦ True) fun _ _ ↦ trivial).hoistsLast

end Emitter

end Turtle

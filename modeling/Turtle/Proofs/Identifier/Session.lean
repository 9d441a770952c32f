import Mathlib.Tactic.Push
import Turtle.Proofs.Identifier.Search
import Turtle.Table

/-!
# Sessions with identifiers

A session is any sequence of calls that ask for identifiers or name the variables anew.  Two facts
carry all others.  A name keeps its identifier, as the table of the names given only grows; and an
identifier that is handed out for the first time is not among the words taken, which are the lower
cases of all identifiers handed out before.
-/

namespace Turtle.Names

/-- A call on the identifiers handed out. -/
inductive Call where
  /-- Ask for the identifier of a name. -/
  | get (kind : NameKind) (nameOrId : String)
  /-- Ask for an identifier that nothing else has. -/
  | fresh (name : String)
  /-- Name the variables anew. -/
  | setVariables (vars : List (String × String))
deriving DecidableEq, Repr

/-- An identifier handed out, with the key of the name that it was asked for.  A fresh identifier
belongs to no name. -/
structure Grant where
  key : Option (NameKind × String)
  identifier : String
deriving DecidableEq, Repr

/-- Answer a call. -/
def perform (n : Names) : Call → Option Grant × Names
  | .get kind nameOrId =>
    (some ⟨some (n.key kind nameOrId), (n.get kind nameOrId).1⟩, (n.get kind nameOrId).2)
  | .fresh name => (some ⟨none, (n.fresh name).1⟩, (n.fresh name).2)
  | .setVariables vars => (none, n.setVariables vars)

/-- The identifiers handed out in a session, in order. -/
def session (n : Names) : List Call → List Grant
  | [] => []
  | call :: rest => (n.perform call).1.toList ++ (n.perform call).2.session rest

/-- The state after a session. -/
def after (n : Names) (calls : List Call) : Names := calls.foldl (fun n call ↦ (n.perform call).2) n

/-! ## The invariant -/

/-- What holds of the identifiers handed out at any time. -/
structure Consistent (n : Names) : Prop where
  legal : ∀ e ∈ n.given, isIdentifier e.2
  taken : ∀ e ∈ n.given, lower e.2 ∈ n.taken
  apart : ∀ e ∈ n.given, ∀ e' ∈ n.given, lower e.2 = lower e'.2 → e.1 = e'.1
  unreserved : ∀ word ∈ n.taken, word ∉ n.reserved

theorem consistent_ofReserved (words : List String) : (ofReserved words).Consistent where
  legal := by simp [ofReserved]
  taken := by simp [ofReserved]
  apart := by simp [ofReserved]
  unreserved := by simp [ofReserved]

namespace Consistent

variable {n : Names}

/-- Taking a free identifier. -/
theorem take (h : n.Consistent) {chosen : String} (hfree : n.isFree chosen) :
    { n with taken := lower chosen :: n.taken }.Consistent where
  legal := h.legal
  taken e he := List.mem_cons_of_mem _ (h.taken e he)
  apart := h.apart
  unreserved word hword := by
    rcases List.mem_cons.1 hword with rfl | hword
    · exact (isFree_iff.1 hfree).2
    · exact h.unreserved word hword

/-- Giving a free identifier to a name. -/
theorem give (h : n.Consistent) (key : NameKind × String) {chosen : String}
    (hlegal : isIdentifier chosen) (hfree : n.isFree chosen) :
    { n with
      taken := lower chosen :: n.taken
      given := (key, chosen) :: n.given }.Consistent := by
  have hnew : ∀ e ∈ n.given, lower e.2 ≠ lower chosen := fun e he heq ↦
    (isFree_iff.1 hfree).1 (heq ▸ h.taken e he)
  refine ⟨fun e he ↦ ?_, fun e he ↦ ?_, fun e he e' he' heq ↦ ?_, (h.take hfree).unreserved⟩
  · rcases List.mem_cons.1 he with rfl | he
    · exact hlegal
    · exact h.legal e he
  · rcases List.mem_cons.1 he with rfl | he
    · exact List.mem_cons_self
    · exact List.mem_cons_of_mem _ (h.taken e he)
  · rcases List.mem_cons.1 he with rfl | he <;> rcases List.mem_cons.1 he' with rfl | he'
    · rfl
    · exact absurd heq.symm (hnew e' he')
    · exact absurd heq (hnew e he)
    · exact h.apart e he e' he' heq

theorem setVariables (h : n.Consistent) (vars : List (String × String)) :
    (n.setVariables vars).Consistent := ⟨h.legal, h.taken, h.apart, h.unreserved⟩

theorem get (h : n.Consistent) (kind : NameKind) (nameOrId : String) :
    (n.get kind nameOrId).2.Consistent := by
  obtain ⟨chosen, -, heq⟩ | ⟨-, chosen, hlegal, hfree, heq⟩ := n.get_cases kind nameOrId
  · rw [heq]; exact h
  · rw [heq]; exact h.give _ hlegal hfree

theorem fresh (h : n.Consistent) (name : String) : (n.fresh name).2.Consistent := by
  obtain ⟨chosen, -, hfree, heq⟩ := n.fresh_eq name
  rw [heq]
  exact h.take hfree

theorem perform (h : n.Consistent) (call : Call) : (n.perform call).2.Consistent := by
  cases call with
  | get kind nameOrId => exact h.get kind nameOrId
  | fresh name => exact h.fresh name
  | setVariables vars => exact h.setVariables vars

theorem after (h : n.Consistent) (calls : List Call) : (n.after calls).Consistent := by
  induction calls generalizing n with
  | nil => exact h
  | cons call rest ih => exact ih (h.perform call)

/-- An identifier that a name has is not reserved. -/
theorem notMem_reserved (h : n.Consistent) {key : NameKind × String} {chosen : String}
    (hkey : n.given.lookup key = some chosen) : lower chosen ∉ n.reserved :=
  h.unreserved _ (h.taken (key, chosen) (Table.mem_of_lookup hkey))

/-- Different names have different identifiers. -/
theorem lower_ne (h : n.Consistent) {key key' : NameKind × String} {chosen chosen' : String}
    (hkey : n.given.lookup key = some chosen) (hkey' : n.given.lookup key' = some chosen')
    (hne : key ≠ key') : lower chosen ≠ lower chosen' := fun heq ↦
  hne (h.apart (key, chosen) (Table.mem_of_lookup hkey) (key', chosen')
    (Table.mem_of_lookup hkey') heq)

end Consistent

/-! ## Nothing is forgotten -/

/-- What has been handed out stays handed out. -/
structure Grows (n m : Names) : Prop where
  given : ∀ key chosen, n.given.lookup key = some chosen → m.given.lookup key = some chosen
  taken : ∀ word ∈ n.taken, word ∈ m.taken
  reserved : m.reserved = n.reserved

namespace Grows

variable {n m k : Names}

theorem refl (n : Names) : n.Grows n := ⟨fun _ _ h ↦ h, fun _ h ↦ h, rfl⟩

theorem trans (h : n.Grows m) (h' : m.Grows k) : n.Grows k where
  given key chosen hkey := h'.given key chosen (h.given key chosen hkey)
  taken word hword := h'.taken word (h.taken word hword)
  reserved := h'.reserved.trans h.reserved

end Grows

theorem grows_get (n : Names) (kind : NameKind) (nameOrId : String) :
    n.Grows (n.get kind nameOrId).2 := by
  obtain ⟨chosen, -, heq⟩ | ⟨hnone, chosen, -, -, heq⟩ := n.get_cases kind nameOrId
  · rw [heq]; exact .refl n
  · rw [heq]
    refine ⟨fun key c hkey ↦ ?_, fun word hword ↦ List.mem_cons_of_mem _ hword, rfl⟩
    have hne : key ≠ n.key kind nameOrId := by
      rintro rfl
      rw [hnone] at hkey
      cases hkey
    rw [List.lookup_cons, beq_eq_false_iff_ne.2 hne]
    exact hkey

theorem grows_fresh (n : Names) (name : String) : n.Grows (n.fresh name).2 := by
  obtain ⟨chosen, -, -, heq⟩ := n.fresh_eq name
  rw [heq]
  exact ⟨fun _ _ h ↦ h, fun word hword ↦ List.mem_cons_of_mem _ hword, rfl⟩

theorem grows_perform (n : Names) (call : Call) : n.Grows (n.perform call).2 := by
  cases call with
  | get kind nameOrId => exact n.grows_get kind nameOrId
  | fresh name => exact n.grows_fresh name
  | setVariables vars => exact ⟨fun _ _ h ↦ h, fun _ h ↦ h, rfl⟩

/-- Once a name has been asked for, it has the identifier that was the answer. -/
theorem lookup_get (n : Names) (kind : NameKind) (nameOrId : String) :
    (n.get kind nameOrId).2.given.lookup (n.key kind nameOrId) =
      some (n.get kind nameOrId).1 := by
  obtain ⟨chosen, hkey, heq⟩ | ⟨-, chosen, -, -, heq⟩ := n.get_cases kind nameOrId
  · rw [heq]; exact hkey
  · rw [heq]; exact List.lookup_cons_self

/-- A later state in which the variables are named as before. -/
structure Follows (n m : Names) : Prop where
  grows : n.Grows m
  consistent : n.Consistent → m.Consistent
  vars : m.vars = n.vars

namespace Follows

variable {n m k : Names}

theorem refl (n : Names) : n.Follows n := ⟨.refl n, id, rfl⟩

theorem trans (h : n.Follows m) (h' : m.Follows k) : n.Follows k where
  grows := h.grows.trans h'.grows
  consistent := h'.consistent ∘ h.consistent
  vars := h'.vars.trans h.vars

end Follows

theorem follows_get (n : Names) (kind : NameKind) (nameOrId : String) :
    n.Follows (n.get kind nameOrId).2 := by
  refine ⟨n.grows_get kind nameOrId, fun h ↦ h.get kind nameOrId, ?_⟩
  obtain ⟨chosen, -, heq⟩ | ⟨-, chosen, -, -, heq⟩ := n.get_cases kind nameOrId <;> rw [heq]

theorem key_of_vars_eq {n m : Names} (h : m.vars = n.vars) (kind : NameKind) (nameOrId : String) :
    m.key kind nameOrId = n.key kind nameOrId := by
  cases kind <;> simp only [key, resolve, h]

/-- A name that has an identifier is answered with it. -/
theorem get_of_lookup {n : Names} {kind : NameKind} {nameOrId chosen : String}
    (h : n.given.lookup (n.key kind nameOrId) = some chosen) :
    n.get kind nameOrId = (chosen, n) := by
  obtain ⟨chosen', hkey, heq⟩ | ⟨hnone, -⟩ := n.get_cases kind nameOrId
  · rw [heq, Option.some.inj (h.symm.trans hkey)]
  · rw [hnone] at h
    cases h

/-- Every later state gives the same answer. -/
theorem Follows.get_eq {n m : Names} {kind : NameKind} {nameOrId : String}
    (h : (n.get kind nameOrId).2.Follows m) :
    m.get kind nameOrId = ((n.get kind nameOrId).1, m) := by
  refine get_of_lookup ?_
  rw [key_of_vars_eq (h.vars.trans (n.follows_get kind nameOrId).vars)]
  exact h.grows.given _ _ (n.lookup_get kind nameOrId)

theorem Consistent.isIdentifier_get {n : Names} (h : n.Consistent) (kind : NameKind)
    (nameOrId : String) : isIdentifier (n.get kind nameOrId).1 :=
  (h.get kind nameOrId).legal (_, _) (Table.mem_of_lookup (n.lookup_get kind nameOrId))

/-! ## Grants -/

/-- What a grant says about the state in which it is made: an identifier that the name already has
is granted again, and any other grant is of a legal identifier that was free. -/
structure Grant.Sound (n : Names) (g : Grant) : Prop where
  legal : isIdentifier g.identifier
  unreserved : lower g.identifier ∉ n.reserved
  again : ∀ key chosen, g.key = some key → n.given.lookup key = some chosen → g.identifier = chosen
  new : (∀ key, g.key = some key → n.given.lookup key = none) → lower g.identifier ∉ n.taken

/-- A grant of a later state is sound for an earlier one. -/
theorem Grant.Sound.of_grows {n m : Names} (h : n.Grows m) {g : Grant} (hg : g.Sound m)
    (hnew : ∀ key chosen, n.given.lookup key = none → m.given.lookup key = some chosen →
      lower chosen ∉ n.taken) : g.Sound n where
  legal := hg.legal
  unreserved := h.reserved ▸ hg.unreserved
  again key chosen hkey hlookup := hg.again key chosen hkey (h.given key chosen hlookup)
  new hnone := by
    by_cases hm : ∀ key, g.key = some key → m.given.lookup key = none
    · exact fun hmem ↦ hg.new hm (h.taken _ hmem)
    · push Not at hm
      obtain ⟨key, hkey, hsome⟩ := hm
      obtain ⟨chosen, hchosen⟩ := Option.ne_none_iff_exists'.1 hsome
      rw [hg.again key chosen hkey hchosen]
      exact hnew key chosen (hnone key hkey) hchosen

/-- What a call adds to the names given is free before. -/
theorem notMem_taken_of_perform (n : Names) (call : Call) {key : NameKind × String}
    {chosen : String} (hnone : n.given.lookup key = none)
    (hsome : (n.perform call).2.given.lookup key = some chosen) : lower chosen ∉ n.taken := by
  cases call with
  | get kind nameOrId =>
    rw [perform] at hsome
    obtain ⟨c, -, heq⟩ | ⟨-, c, -, hfree, heq⟩ := n.get_cases kind nameOrId
    · rw [heq, hnone] at hsome
      cases hsome
    · rw [heq] at hsome
      simp only [List.lookup_cons] at hsome
      split at hsome
      · cases hsome
        exact (isFree_iff.1 hfree).1
      · rw [hnone] at hsome
        cases hsome
  | fresh name =>
    obtain ⟨c, -, -, heq⟩ := n.fresh_eq name
    rw [perform, heq, hnone] at hsome
    cases hsome
  | setVariables vars =>
    rw [perform, setVariables, hnone] at hsome
    cases hsome

theorem sound_of_perform {n : Names} (h : n.Consistent) {call : Call} {g : Grant}
    (hg : (n.perform call).1 = some g) : g.Sound n := by
  cases call with
  | get kind nameOrId =>
    cases hg
    obtain ⟨chosen, hkey, heq⟩ | ⟨hnone, chosen, hlegal, hfree, heq⟩ := n.get_cases kind nameOrId
    · refine ⟨?_, ?_, fun key c hk hc ↦ ?_, fun hn ↦ ?_⟩
      · exact heq ▸ h.legal (_, chosen) (Table.mem_of_lookup hkey)
      · exact heq ▸ h.notMem_reserved hkey
      · cases hk
        rw [hkey] at hc
        cases hc
        rw [heq]
      · have := hn _ rfl
        rw [hkey] at this
        cases this
    · refine ⟨?_, ?_, fun key c hk hc ↦ ?_, fun _ ↦ ?_⟩
      · exact heq ▸ hlegal
      · exact heq ▸ (isFree_iff.1 hfree).2
      · cases hk
        rw [hnone] at hc
        cases hc
      · exact heq ▸ (isFree_iff.1 hfree).1
  | fresh name =>
    cases hg
    obtain ⟨chosen, hlegal, hfree, heq⟩ := n.fresh_eq name
    refine ⟨heq ▸ hlegal, heq ▸ (isFree_iff.1 hfree).2, ?_, fun _ ↦ heq ▸ (isFree_iff.1 hfree).1⟩
    intro key c hk
    cases hk
  | setVariables vars => cases hg

/-- Every grant of a session is sound for the state in which the session starts. -/
theorem sound_of_mem_session {n : Names} (h : n.Consistent) {calls : List Call} {g : Grant}
    (hg : g ∈ n.session calls) : g.Sound n := by
  induction calls generalizing n with
  | nil => cases hg
  | cons call rest ih =>
    rw [session, List.mem_append, Option.mem_toList] at hg
    rcases hg with hg | hg
    · exact sound_of_perform h hg
    · exact (ih (h.perform call) hg).of_grows (n.grows_perform call)
        fun key chosen ↦ n.notMem_taken_of_perform call

/-- Two grants go together: grants for one name are of one identifier, and any others are of
identifiers that Logo tells apart. -/
def Grant.Agrees (g g' : Grant) : Prop :=
  if g.key.isSome ∧ g.key = g'.key then g.identifier = g'.identifier
  else lower g.identifier ≠ lower g'.identifier

/-- What a grant leaves behind: its identifier is taken and, unless it is a fresh one, given to the
name. -/
theorem kept_of_perform {n : Names} (h : n.Consistent) {call : Call} {g : Grant}
    (hg : (n.perform call).1 = some g) :
    lower g.identifier ∈ (n.perform call).2.taken ∧
      (∀ key, g.key = some key →
        (n.perform call).2.given.lookup key = some g.identifier) ∧
      (g.key = none → (n.perform call).2.given = n.given) := by
  cases call with
  | get kind nameOrId =>
    rw [perform] at hg ⊢
    obtain rfl := Option.some.inj hg
    have hkey := n.lookup_get kind nameOrId
    refine ⟨(h.get kind nameOrId).taken (_, _) (Table.mem_of_lookup hkey), fun key hk ↦ ?_, nofun⟩
    rw [← Option.some.inj hk]
    exact hkey
  | fresh name =>
    obtain ⟨chosen, -, -, heq⟩ := n.fresh_eq name
    rw [perform, heq] at hg ⊢
    obtain rfl := Option.some.inj hg
    exact ⟨List.mem_cons_self, nofun, fun _ ↦ rfl⟩
  | setVariables vars => cases hg

/-- The grant of a call goes together with whatever is granted afterwards. -/
theorem agrees_of_perform {n : Names} (h : n.Consistent) {call : Call} {g g' : Grant}
    (hg : (n.perform call).1 = some g) (hg' : g'.Sound (n.perform call).2) : g.Agrees g' := by
  obtain ⟨htaken, hgiven, hfresh⟩ := kept_of_perform h hg
  unfold Grant.Agrees
  split
  case isTrue hsame =>
    obtain ⟨key, hkey⟩ := Option.isSome_iff_exists.1 hsame.1
    exact (hg'.again key _ (hsame.2 ▸ hkey) (hgiven key hkey)).symm
  case isFalse hsame =>
    by_cases hnone : ∀ key, g'.key = some key → (n.perform call).2.given.lookup key = none
    · exact fun heq ↦ hg'.new hnone (heq ▸ htaken)
    · push Not at hnone
      obtain ⟨key', hkey', hsome⟩ := hnone
      obtain ⟨chosen, hchosen⟩ := Option.ne_none_iff_exists'.1 hsome
      rw [hg'.again key' chosen hkey' hchosen]
      cases hkey : g.key with
      | some key =>
        refine (h.perform call).lower_ne (hgiven key hkey) hchosen ?_
        rintro rfl
        exact hsame ⟨by rw [hkey]; rfl, by rw [hkey, hkey']⟩
      | none =>
        -- What names have now they had before, and a fresh identifier was not taken then.
        rw [hfresh hkey] at hchosen
        intro heq
        have hmem := h.taken (key', chosen) (Table.mem_of_lookup hchosen)
        exact (sound_of_perform h hg).new (by rw [hkey]; nofun) (heq ▸ hmem)

theorem pairwise_session {n : Names} (h : n.Consistent) (calls : List Call) :
    (n.session calls).Pairwise Grant.Agrees := by
  induction calls generalizing n with
  | nil => exact .nil
  | cons call rest ih =>
    rw [session, List.pairwise_append]
    refine ⟨?_, ih (h.perform call), fun g hg g' hg' ↦ ?_⟩
    · cases (n.perform call).1 with
      | none => exact .nil
      | some g => exact List.pairwise_singleton _ g
    · exact agrees_of_perform h (Option.mem_toList.1 hg)
        (sound_of_mem_session (h.perform call) hg')

/-- In a session with any words reserved, every identifier is legal and none is a reserved word in
another case.  All grants for one name are of one identifier, and all others of identifiers that
differ even when case is ignored. -/
theorem session_agrees (words : List String) (calls : List Call) :
    (∀ g ∈ (ofReserved words).session calls,
      isIdentifier g.identifier ∧ ∀ word ∈ words, lower g.identifier ≠ lower word) ∧
    ((ofReserved words).session calls).Pairwise Grant.Agrees := by
  refine ⟨fun g hg ↦ ?_, pairwise_session (consistent_ofReserved words) calls⟩
  have hsound := sound_of_mem_session (consistent_ofReserved words) hg
  refine ⟨hsound.legal, fun word hword heq ↦ hsound.unreserved ?_⟩
  rw [heq]
  exact List.mem_map_of_mem hword

-- The procedure `X` has to make way for the variable `x`, and `x2` for the procedure.
example : ((ofReserved ["first"]).session [.get .variable "x", .get .procedure "X",
    .fresh "first", .get .variable "x2", .setVariables [("id", "X")],
    .get .variable "id"]).map (·.identifier) = ["x", "X2", "first2", "x22", "x"] := by
  decide +kernel

end Turtle.Names

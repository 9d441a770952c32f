import Turtle.Json.Reader
import Turtle.Proofs.Number.Finite

/-!
# The numbers of a document are finite

A number beyond all doubles is refused, and there is no way to write that a value is not a number.
So whatever is read from a text has finite numbers only, however deep they are nested.
-/

namespace Turtle.Json

/-! ## Numbers -/

theorem Literal.isFinite_numeral? {l : Literal} {n : Numeral} (h : l.numeral? = some n) :
    n.toBinary64.IsFinite := by
  unfold numeral? at h
  simp only at h
  split at h
  case isTrue hinteger =>
    have hbound : Text.natOfDigits l.whole ≤ 2 ^ 64 := Nat.le_of_lt hinteger.2.2
    split at h
    · split at h
      · cases h
        exact Binary64.isFinite_ofRatio hbound true
      · cases h
        exact Binary64.isFinite_ofInt (by rwa [Int.natAbs_neg])
    · cases h
      exact Binary64.isFinite_ofInt hbound
  case isFalse =>
    obtain ⟨x, hx, rfl⟩ := Option.map_eq_some_iff.1 h
    obtain ⟨units, -, rfl⟩ := Option.map_eq_some_iff.1 hx
    exact ⟨_, _, rfl⟩

/-! ## Values and tokens -/

/-- All numbers in a value are finite. -/
inductive IsFinite : Json → Prop
  | null : IsFinite .null
  | bool (b : Bool) : IsFinite (.bool b)
  | number {n : Numeral} (h : n.toBinary64.IsFinite) : IsFinite (.number n)
  | text (s : String) : IsFinite (.text s)
  | array {items : List Json} (h : ∀ j ∈ items, IsFinite j) : IsFinite (.array items)
  | object {members : List (String × Json)} (h : ∀ entry ∈ members, IsFinite entry.2) :
    IsFinite (.object members)

theorem IsFinite.member {j k : Json} {key : String} (h : j.IsFinite)
    (hk : j.member? key = some k) : k.IsFinite := by
  cases h with
  | object h => exact h _ (mem_of_lookup hk)
  | null | bool | number | text | array => cases hk

/-- A token that is a value has finite numbers. -/
def Token.IsFinite (t : Token) : Prop := ∀ j, t = .scalar j → j.IsFinite

theorem isFinite_of_readWord {word s rest : List Char} {value : Json} {t : Token}
    (hvalue : value.IsFinite) (h : readWord word value s = some (t, rest)) : t.IsFinite := by
  unfold readWord at h
  split at h
  · cases h
    rintro j ⟨rfl⟩
    exact hvalue
  · cases h

theorem isFinite_of_readNumber {negative : Bool} {s rest : List Char} {t : Token}
    (h : readNumber negative s = some (t, rest)) : t.IsFinite := by
  unfold readNumber at h
  split at h
  · cases h
  · obtain ⟨n, hn, heq⟩ := Option.map_eq_some_iff.1 h
    cases heq
    rintro j ⟨rfl⟩
    exact .number (Literal.isFinite_numeral? hn)

theorem isFinite_of_punctuation? {c : Char} {t : Token} (h : punctuation? c = some t) :
    t.IsFinite := by
  rintro j rfl
  unfold punctuation? at h
  split at h <;> cases h

theorem isFinite_of_readToken {c : Char} {s rest : List Char} {t : Token}
    (h : readToken c s = some (t, rest)) : t.IsFinite := by
  unfold readToken at h
  split at h
  · obtain ⟨_, _, heq⟩ := Option.map_eq_some_iff.1 h
    cases heq
    exact nofun
  split at h
  · exact isFinite_of_readWord .null h
  split at h
  · exact isFinite_of_readWord (.bool true) h
  split at h
  · exact isFinite_of_readWord (.bool false) h
  split at h
  · exact isFinite_of_readNumber h
  split at h
  · exact isFinite_of_readNumber h
  · obtain ⟨t', ht', heq⟩ := Option.map_eq_some_iff.1 h
    cases heq
    exact isFinite_of_punctuation? ht'

theorem isFinite_tokens (s : List Char) : ∀ t ∈ tokens s, t.IsFinite := by
  fun_induction tokens s with
  | case1 => exact nofun
  | case2 c s hblank ih => exact ih
  | case3 c s hblank hread =>
    intro t ht
    cases List.mem_singleton.1 ht
    exact nofun
  | case4 c s hblank t rest hread ih => exact List.forall_mem_cons.2 ⟨isFinite_of_readToken hread, ih⟩

/-! ## The automaton -/

/-- The values so far of an open array or object have finite numbers. -/
def Frame.IsFinite : Frame → Prop
  | .array items => ∀ j ∈ items, j.IsFinite
  | .object members _ => ∀ entry ∈ members, entry.2.IsFinite

namespace State

/-- The values so far have finite numbers. -/
def IsFinite : State → Prop
  | value outer | firstItem outer | firstKey outer => ∀ f ∈ outer, f.IsFinite
  | nextKey members outer | colon members _ outer | moreMembers members outer =>
    (∀ entry ∈ members, entry.2.IsFinite) ∧ ∀ f ∈ outer, f.IsFinite
  | moreItems items outer => (∀ j ∈ items, j.IsFinite) ∧ ∀ f ∈ outer, f.IsFinite
  | done root => root.IsFinite

variable {s s' : State} {t : Token} {j : Json} {outer : List Frame}

theorem isFinite_close (hj : j.IsFinite) (houter : ∀ f ∈ outer, f.IsFinite) :
    (close j outer).IsFinite := by
  cases outer with
  | nil => exact hj
  | cons frame outer =>
    obtain ⟨hframe, hrest⟩ := List.forall_mem_cons.1 houter
    cases frame with
    | array items => exact ⟨List.forall_mem_cons.2 ⟨hj, hframe⟩, hrest⟩
    | object members key =>
      refine ⟨fun entry hentry ↦ ?_, hrest⟩
      rcases Table.mem_put hentry with rfl | hentry
      · exact hj
      · exact hframe entry hentry

theorem isFinite_enter (houter : ∀ f ∈ outer, f.IsFinite) (ht : t.IsFinite)
    (h : enter outer t = .ok s') : s'.IsFinite := by
  unfold enter at h
  split at h
  · cases h
    exact isFinite_close (.text _) houter
  · cases h
    exact isFinite_close (ht _ rfl) houter
  · cases h
    exact houter
  · cases h
    exact houter
  · cases h

/-- A token leaves the numbers finite: it begins a value, closes one, or leads to the next place in
the frame at hand. -/
theorem isFinite_step (hs : s.IsFinite) (ht : t.IsFinite) (h : step s t = .ok s') :
    s'.IsFinite := by
  unfold step at h
  split at h
  case h_1 => exact isFinite_enter hs ht h
  case h_2 =>
    cases h
    exact isFinite_close (.array nofun) hs
  case h_3 =>
    have hframe : (Frame.array []).IsFinite := nofun
    exact isFinite_enter (List.forall_mem_cons.2 ⟨hframe, hs⟩) ht h
  case h_4 =>
    cases h
    exact isFinite_close (.object nofun) hs
  case h_5 =>
    cases h
    exact ⟨nofun, hs⟩
  case h_6 | h_10 =>
    cases h
    exact hs
  case h_7 | h_8 =>
    cases h
    exact List.forall_mem_cons.2 hs
  case h_9 =>
    cases h
    exact isFinite_close (.array fun j hj ↦ hs.1 j (List.mem_reverse.1 hj)) hs.2
  case h_11 =>
    cases h
    exact isFinite_close (.object hs.1) hs.2
  case h_12 | h_13 => cases h

/-- By induction on the tokens: all of them leave the numbers finite. -/
theorem isFinite_foldlM {tokens : List Token} (hs : s.IsFinite) (ht : ∀ t ∈ tokens, t.IsFinite)
    (h : tokens.foldlM step s = .ok s') : s'.IsFinite := by
  induction tokens generalizing s with
  | nil =>
    cases h
    exact hs
  | cons t tokens ih =>
    obtain ⟨ht, htokens⟩ := List.forall_mem_cons.1 ht
    rw [List.foldlM_cons] at h
    cases hstep : step s t with
    | error e =>
      rw [hstep] at h
      cases h
    | ok next =>
      rw [hstep] at h
      exact ih (isFinite_step hs ht hstep) htokens h

end State

/-- The numbers of a document are finite. -/
theorem isFinite_of_read {s : String} {j : Json} (h : read s = .ok j) : j.IsFinite := by
  unfold read ofTokens at h
  cases hstate : (tokens s.toList).foldlM State.step (.value []) with
  | error e =>
    rw [hstate] at h
    cases h
  | ok state =>
    rw [hstate] at h
    have hfinite : state.IsFinite :=
      State.isFinite_foldlM (s := .value []) nofun (isFinite_tokens s.toList) hstate
    change state.result = .ok j at h
    cases state with
    | done root =>
      cases h
      exact hfinite
    | value | firstItem | firstKey | nextKey | colon | moreItems | moreMembers => cases h

end Turtle.Json

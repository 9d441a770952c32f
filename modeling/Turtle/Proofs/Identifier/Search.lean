import Mathlib.Tactic.ByContra
import Turtle.Proofs.Identifier.Legal

/-!
# The search for a free identifier

The search tries the candidates for a base in order.  As Logo tells them apart, more of them than
there are words that are taken or reserved cannot all be refused, so the search ends at the first
free one.
-/

namespace Turtle.Names

theorem isFree_iff {n : Names} {identifier : String} :
    n.isFree identifier ↔ lower identifier ∉ n.taken ∧ lower identifier ∉ n.reserved := by
  simp [isFree]

/-- Among the first candidates, one more than there are words in the way, one is free. -/
theorem exists_isFree_candidate (n : Names) {base : String} (h : isIdentifier base) :
    ∃ i ≤ n.taken.length + n.reserved.length, n.isFree (candidate base i) := by
  by_contra hall
  have hmem : (List.range (n.taken.length + n.reserved.length + 1)).map
      (fun i ↦ lower (candidate base i)) ⊆ n.taken ++ n.reserved := by
    intro word hword
    obtain ⟨i, hi, rfl⟩ := List.mem_map.1 hword
    rw [List.mem_range] at hi
    by_contra hfree
    rw [List.mem_append, not_or] at hfree
    exact hall ⟨i, by omega, isFree_iff.2 hfree⟩
  have hnodup : ((List.range (n.taken.length + n.reserved.length + 1)).map
      fun i ↦ lower (candidate base i)).Nodup := by
    refine List.pairwise_map.2 (List.nodup_range.imp fun hij e ↦ hij ?_)
    exact lower_candidate_injective h e
  have hlength := hnodup.length_le_of_subset hmem
  simp only [List.length_map, List.length_range, List.length_append] at hlength
  omega

/-- The search stops at the first free candidate, or at the last one it may look at. -/
theorem search_eq (n : Names) (base : String) (i more : Nat) :
    ∃ j, i ≤ j ∧ j ≤ i + more ∧ n.search base i more = candidate base j ∧
      (∀ k, i ≤ k → k < j → ¬ n.isFree (candidate base k)) ∧
      (j < i + more → n.isFree (candidate base j)) := by
  induction more generalizing i with
  | zero => exact ⟨i, by omega, by omega, rfl, fun k hk hj ↦ by omega, fun hi ↦ by omega⟩
  | succ more ih =>
    simp only [search]
    split
    case isTrue hfree =>
      exact ⟨i, by omega, by omega, rfl, fun k hk hj ↦ by omega, fun _ ↦ hfree⟩
    case isFalse hfree =>
      obtain ⟨j, hij, hj, heq, hbefore, hlast⟩ := ih (i + 1)
      refine ⟨j, by omega, by omega, heq, fun k hk hkj ↦ ?_, fun hlt ↦ hlast (by omega)⟩
      by_cases hik : k = i
      · exact hik ▸ hfree
      · exact hbefore k (by omega) hkj

/-- The identifier that is chosen for a base is the first free candidate. -/
theorem firstFree_eq (n : Names) {base : String} (h : isIdentifier base) :
    ∃ i ≤ n.taken.length + n.reserved.length, n.firstFree base = candidate base i ∧
      n.isFree (candidate base i) ∧ ∀ j < i, ¬ n.isFree (candidate base j) := by
  obtain ⟨i, -, hi, heq, hbefore, hlast⟩ :=
    n.search_eq base 0 (n.taken.length + n.reserved.length)
  rw [Nat.zero_add] at hi hlast
  refine ⟨i, hi, heq, ?_, fun j hj ↦ hbefore j (Nat.zero_le j) hj⟩
  by_cases hlt : i < n.taken.length + n.reserved.length
  · exact hlast hlt
  · obtain ⟨j, hj, hfree⟩ := n.exists_isFree_candidate h
    have hij : j = i := by
      by_contra hne
      exact hbefore j (Nat.zero_le j) (by omega) hfree
    exact hij ▸ hfree

/-! ## What is handed out -/

/-- A fresh identifier is legal, neither taken nor reserved, and taken from then on. -/
theorem fresh_eq (n : Names) (name : String) :
    ∃ chosen, isIdentifier chosen ∧ n.isFree chosen ∧
      n.fresh name = (chosen, { n with taken := lower chosen :: n.taken }) := by
  obtain ⟨i, -, heq, hfree, -⟩ := n.firstFree_eq (isIdentifier_identifier name)
  refine ⟨candidate (identifier name) i, ?_, hfree, ?_⟩
  · exact isIdentifier_candidate (isIdentifier_identifier name) i
  · simp only [fresh, heq]

/-- What a name is known by: its kind and its lower case. -/
def key (n : Names) (kind : NameKind) (nameOrId : String) : NameKind × String :=
  (kind, lower (n.resolve kind nameOrId))

theorem get_eq (n : Names) (kind : NameKind) (nameOrId : String) :
    n.get kind nameOrId = match n.given.lookup (n.key kind nameOrId) with
      | some chosen => (chosen, n)
      | none =>
        let (chosen, m) := n.fresh (n.resolve kind nameOrId)
        (chosen, { m with given := (n.key kind nameOrId, chosen) :: m.given }) := rfl

/-- A name that has an identifier keeps it, and any other name is given a fresh one. -/
theorem get_cases (n : Names) (kind : NameKind) (nameOrId : String) :
    (∃ chosen, n.given.lookup (n.key kind nameOrId) = some chosen ∧
      n.get kind nameOrId = (chosen, n)) ∨
    n.given.lookup (n.key kind nameOrId) = none ∧
      ∃ chosen, isIdentifier chosen ∧ n.isFree chosen ∧
        n.get kind nameOrId = (chosen, { n with
          taken := lower chosen :: n.taken
          given := (n.key kind nameOrId, chosen) :: n.given }) := by
  cases h : n.given.lookup (n.key kind nameOrId) with
  | some chosen => exact .inl ⟨chosen, rfl, by rw [get_eq, h]⟩
  | none =>
    obtain ⟨chosen, hlegal, hfree, heq⟩ := n.fresh_eq (n.resolve kind nameOrId)
    exact .inr ⟨rfl, chosen, hlegal, hfree, by rw [get_eq, h, heq]⟩

end Turtle.Names

import Mathlib.Data.Finset.Card
import Mathlib.Order.Bounds.Defs
import Turtle.Proofs.Identifier.Search

/-!
# The search without a bound

A search that is not told when to stop tries one candidate after the other until it comes upon a
free one.  It does come upon one, after no more tries than there are words in the way and one more,
and that is the identifier that is handed out.
-/

namespace Turtle.Names

/-- From the `i`-th candidate on, `tries` candidates are tried: the last of them, the `j`-th, is
free, and none before it. -/
inductive Tries (n : Names) (base : String) : Nat → Nat → Nat → Prop
  | free {i : Nat} (h : n.isFree (candidate base i)) : Tries n base i 1 i
  | next {i tries j : Nat} (h : ¬ n.isFree (candidate base i))
    (rest : Tries n base (i + 1) tries j) : Tries n base i (tries + 1) j

namespace Tries

variable {n : Names} {base : String} {i tries j : Nat}

/-- A search has but one end. -/
theorem unique {tries' j' : Nat} (h : n.Tries base i tries j) (h' : n.Tries base i tries' j') :
    tries' = tries ∧ j' = j := by
  induction h generalizing tries' with
  | free hfree =>
    cases h' with
    | free => exact ⟨rfl, rfl⟩
    | next hnot => exact absurd hfree hnot
  | next hnot _ ih =>
    cases h' with
    | free hfree => exact absurd hfree hnot
    | next _ rest =>
      obtain ⟨rfl, rfl⟩ := ih rest
      exact ⟨rfl, rfl⟩

/-- By induction on the candidates that are still in the way: the search gets past them. -/
theorem of_isFree (tries : Nat) (hfree : n.isFree (candidate base (i + tries)))
    (hbefore : ∀ k < tries, ¬ n.isFree (candidate base (i + k))) :
    n.Tries base i (tries + 1) (i + tries) := by
  induction tries generalizing i with
  | zero => exact .free hfree
  | succ tries ih =>
    have hsucc : i + (tries + 1) = i + 1 + tries := by omega
    rw [hsucc] at hfree ⊢
    refine .next (hbefore 0 (Nat.succ_pos tries)) (ih hfree ?_)
    intro k hk
    have hstep := hbefore (k + 1) (by omega)
    rwa [show i + (k + 1) = i + 1 + k by omega] at hstep

end Tries

/-- A word that is in the way more than once counts once. -/
theorem exists_isFree_candidate_card (n : Names) {base : String} (h : isIdentifier base) :
    ∃ i ≤ n.taken.toFinset.card + n.reserved.toFinset.card, n.isFree (candidate base i) := by
  let m : Names := { n with taken := n.taken.dedup, reserved := n.reserved.dedup }
  obtain ⟨i, hi, hfree⟩ := m.exists_isFree_candidate h
  refine ⟨i, ?_, ?_⟩
  · rw [List.card_toFinset, List.card_toFinset]
    exact hi
  · rw [isFree_iff, List.mem_dedup, List.mem_dedup] at hfree
    exact isFree_iff.2 hfree

/-- The search for a fresh identifier ends, with at most one try more than there are words taken and
reserved.  What is handed out is the first candidate that in lower case is neither, and all that
changes is that this lower case is taken. -/
theorem fresh_isLeast (n : Names) (name : String) :
    ∃ i, (∀ tries j, n.Tries (identifier name) 0 tries j ↔ tries = i + 1 ∧ j = i) ∧
      i + 1 ≤ n.taken.toFinset.card + n.reserved.toFinset.card + 1 ∧
      IsLeast {j | lower (candidate (identifier name) j) ∉ n.taken ∧
        lower (candidate (identifier name) j) ∉ n.reserved} i ∧
      n.fresh name = (candidate (identifier name) i,
        { n with taken := lower (candidate (identifier name) i) :: n.taken }) := by
  have hlegal := isIdentifier_identifier name
  obtain ⟨i, -, hfirst, hfree, hbefore⟩ := n.firstFree_eq hlegal
  have hleast : ∀ j, n.isFree (candidate (identifier name) j) → i ≤ j := by
    intro j hj
    by_contra hlt
    exact hbefore j (by omega) hj
  refine ⟨i, ?_, ?_, ?_, ?_⟩
  · have hrun : n.Tries (identifier name) 0 (i + 1) (0 + i) := by
      refine .of_isFree i ?_ ?_
      · rwa [Nat.zero_add]
      · intro k hk
        rw [Nat.zero_add]
        exact hbefore k hk
    rw [Nat.zero_add] at hrun
    intro tries j
    constructor
    · exact hrun.unique
    · rintro ⟨rfl, rfl⟩
      exact hrun
  · obtain ⟨j, hj, hfree'⟩ := n.exists_isFree_candidate_card hlegal
    have := hleast j hfree'
    omega
  · constructor
    · exact isFree_iff.1 hfree
    · intro j hj
      exact hleast j (isFree_iff.2 hj)
  · simp only [fresh, hfirst]

-- Two words stand in the way, one of them twice.
example : (({ reserved := ["first"], taken := ["first2", "first2"] } : Names).fresh "First").1 =
    "First3" := by
  decide +kernel

end Turtle.Names

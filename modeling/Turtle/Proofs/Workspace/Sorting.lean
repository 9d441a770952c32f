import Mathlib.Data.Bool.Basic
import Mathlib.Order.Lattice
import Turtle.Workspace

/-!
# Sorting by insertion

What the order does not look at does not matter to sorting.  By a key, the sorted list is the one
that keeps the order of elements with the same key.  Elements that are taken out of a list, or
replaced by others of the same key, leave the order of the others as it is.
-/

namespace Turtle

section Insertion

variable {α β : Type} {less : α → α → Bool}

theorem insertDown_map {f : α → β} {less' : β → β → Bool}
    (h : ∀ a b, less' (f a) (f b) = less a b) (a : α) (as : List α) :
    insertDown less' (f a) (as.map f) = (insertDown less a as).map f := by
  induction as with
  | nil => rfl
  | cons b as ih =>
    simp only [List.map_cons, insertDown, h, ih]
    split <;> rfl

/-- Sorting does not depend on what the order does not look at. -/
theorem stableSort_map {f : α → β} {less' : β → β → Bool}
    (h : ∀ a b, less' (f a) (f b) = less a b) (as : List α) :
    stableSort less' (as.map f) = (stableSort less as).map f := by
  have hfold (sorted : List α) : (as.map f).foldl (fun s a ↦ insertDown less' a s) (sorted.map f) =
      (as.foldl (fun s a ↦ insertDown less a s) sorted).map f := by
    induction as generalizing sorted with
    | nil => rfl
    | cons a as ih => rw [List.map_cons, List.foldl_cons, List.foldl_cons, insertDown_map h, ih]
  rw [stableSort, stableSort, List.map_reverse]
  exact congrArg List.reverse (hfold [])

theorem perm_insertDown (a : α) (as : List α) : (insertDown less a as).Perm (a :: as) := by
  induction as with
  | nil => exact .refl _
  | cons b as ih =>
    rw [insertDown]
    split
    · exact (ih.cons b).trans (.swap a b as)
    · exact .refl _

theorem perm_stableSort (as : List α) : (stableSort less as).Perm as := by
  have hfold (sorted : List α) :
      (as.foldl (fun sorted a ↦ insertDown less a sorted) sorted).Perm (as ++ sorted) := by
    induction as generalizing sorted with
    | nil => exact .refl _
    | cons a as ih =>
      refine (ih _).trans (((perm_insertDown a sorted).append_left as).trans ?_)
      exact List.perm_middle
  have hfold := hfold []
  rw [List.append_nil] at hfold
  exact (List.reverse_perm _).trans hfold

theorem insertDown_congr {less' : α → α → Bool} {a : α} {as : List α}
    (h : ∀ b ∈ as, less a b = less' a b) : insertDown less a as = insertDown less' a as := by
  induction as with
  | nil => rfl
  | cons b as ih =>
    rw [insertDown, insertDown, h b List.mem_cons_self,
      ih fun c hc ↦ h c (List.mem_cons_of_mem b hc)]

/-- Sorting compares nothing but the elements of the list. -/
theorem stableSort_congr {less' : α → α → Bool} {as : List α}
    (h : ∀ a ∈ as, ∀ b ∈ as, less a b = less' a b) : stableSort less as = stableSort less' as := by
  have hfold (rest sorted : List α) (hrest : rest ⊆ as) (hsorted : sorted ⊆ as) :
      rest.foldl (fun s a ↦ insertDown less a s) sorted =
        rest.foldl (fun s a ↦ insertDown less' a s) sorted := by
    induction rest generalizing sorted with
    | nil => rfl
    | cons a rest ih =>
      obtain ⟨ha, hrest⟩ := List.cons_subset.1 hrest
      rw [List.foldl_cons, List.foldl_cons, insertDown_congr fun b hb ↦ h a ha b (hsorted hb)]
      refine ih _ hrest fun b hb ↦ ?_
      rcases List.mem_cons.1 ((perm_insertDown a sorted).mem_iff.1 hb) with rfl | hb
      · exact ha
      · exact hsorted hb
  rw [stableSort, stableSort, hfold as [] (List.Subset.refl as) (List.nil_subset as)]

/-- An element in front of which nothing belongs comes first. -/
theorem insertDown_eq_cons {a : α} {as : List α} (h : ∀ b ∈ as, less a b = false) :
    insertDown less a as = a :: as := by
  cases as with
  | nil => rfl
  | cons b as => rw [insertDown, h b List.mem_cons_self, if_neg Bool.false_ne_true]

/-- A list in which nothing is less stays as it is. -/
theorem stableSort_eq_self {as : List α} (h : ∀ a ∈ as, ∀ b ∈ as, less a b = false) :
    stableSort less as = as := by
  have hfold (rest sorted : List α) (hrest : rest ⊆ as) (hsorted : sorted ⊆ as) :
      rest.foldl (fun s a ↦ insertDown less a s) sorted = rest.reverse ++ sorted := by
    induction rest generalizing sorted with
    | nil => rfl
    | cons a rest ih =>
      obtain ⟨ha, hrest⟩ := List.cons_subset.1 hrest
      rw [List.foldl_cons, insertDown_eq_cons fun b hb ↦ h a ha b (hsorted hb),
        ih _ hrest (List.cons_subset.2 ⟨ha, hsorted⟩), List.reverse_cons, List.append_assoc,
        List.singleton_append]
  rw [stableSort, hfold as [] (List.Subset.refl as) (List.nil_subset as), List.append_nil,
    List.reverse_reverse]

end Insertion

/-! ## Sorting by a key -/

section Key

variable {α β κ : Type} [LinearOrder κ] {key : α → κ} {key' : β → κ} {f : α → Option β}

/-- The order of a key. -/
def byKey (key : α → κ) (a b : α) : Bool := decide (key a < key b)

theorem byKey_eq_true_iff {a b : α} : byKey key a b = true ↔ key a < key b := decide_eq_true_iff

theorem byKey_eq_false_iff {a b : α} : byKey key a b = false ↔ key b ≤ key a := by
  rw [byKey, decide_eq_false_iff_not, not_lt]

theorem pairwise_insertDown {as : List α} (h : as.Pairwise fun b c ↦ key c ≤ key b) (a : α) :
    (insertDown (byKey key) a as).Pairwise fun b c ↦ key c ≤ key b := by
  induction as with
  | nil => exact List.pairwise_singleton _ a
  | cons b as ih =>
    obtain ⟨hb, has⟩ := List.pairwise_cons.1 h
    rw [insertDown]
    split
    case isTrue hless =>
      refine List.pairwise_cons.2 ⟨fun c hc ↦ ?_, ih has⟩
      rcases List.mem_cons.1 ((perm_insertDown a as).mem_iff.1 hc) with rfl | hc
      · exact (byKey_eq_true_iff.1 hless).le
      · exact hb c hc
    case isFalse hless =>
      have hba : key b ≤ key a := byKey_eq_false_iff.1 (Bool.eq_false_of_not_eq_true hless)
      refine List.pairwise_cons.2 ⟨List.forall_mem_cons.2 ⟨hba, fun c hc ↦ ?_⟩, h⟩
      exact (hb c hc).trans hba

/-- The element that is inserted may be taken out again. -/
theorem filterMap_insertDown_of_none {a : α} (ha : f a = none) (less : α → α → Bool)
    (as : List α) : (insertDown less a as).filterMap f = as.filterMap f := by
  induction as with
  | nil => simp [insertDown, ha]
  | cons b as ih =>
    rw [insertDown]
    split
    · rw [List.filterMap_cons, List.filterMap_cons, ih]
    · rw [List.filterMap_cons, ha]

/-- An element finds its place also when others have been taken out before. -/
theorem filterMap_insertDown_of_some (hkey : ∀ a b, f a = some b → key' b = key a) {a : α} {b : β}
    (ha : f a = some b) {as : List α} (h : as.Pairwise fun b c ↦ key c ≤ key b) :
    (insertDown (byKey key) a as).filterMap f =
      insertDown (byKey key') b (as.filterMap f) := by
  induction as with
  | nil => simp [insertDown, ha]
  | cons c as ih =>
    obtain ⟨hc, has⟩ := List.pairwise_cons.1 h
    rw [insertDown]
    cases hfc : f c with
    | some d =>
      have hless : byKey key' b d = byKey key a c := by
        rw [byKey, hkey a b ha, hkey c d hfc, byKey]
      rw [List.filterMap_cons_some hfc, insertDown, hless]
      split
      · rw [List.filterMap_cons_some hfc, ih has]
      · rw [List.filterMap_cons_some ha, List.filterMap_cons_some hfc]
    | none =>
      rw [List.filterMap_cons_none hfc]
      split
      case isTrue => rw [List.filterMap_cons_none hfc, ih has]
      case isFalse hless =>
        -- What stood behind `c` belongs behind `a` too.
        have hca : key c ≤ key a := byKey_eq_false_iff.1 (Bool.eq_false_of_not_eq_true hless)
        rw [List.filterMap_cons_some ha, List.filterMap_cons_none hfc, insertDown_eq_cons]
        intro d hd
        obtain ⟨e, he, hed⟩ := List.mem_filterMap.1 hd
        rw [byKey_eq_false_iff, hkey a b ha, hkey e d hed]
        exact (hc e he).trans hca

/-- Elements may be taken out, or replaced by others of the same key, before or after sorting. -/
theorem stableSort_filterMap (hkey : ∀ a b, f a = some b → key' b = key a) (as : List α) :
    stableSort (byKey key') (as.filterMap f) = (stableSort (byKey key) as).filterMap f := by
  have hfold (sorted : List α) (h : sorted.Pairwise fun b c ↦ key c ≤ key b) :
      (as.filterMap f).foldl (fun s b ↦ insertDown (byKey key') b s) (sorted.filterMap f) =
        (as.foldl (fun s a ↦ insertDown (byKey key) a s) sorted).filterMap f := by
    induction as generalizing sorted with
    | nil => rfl
    | cons a as ih =>
      rw [List.foldl_cons, ← ih _ (pairwise_insertDown h a)]
      cases ha : f a with
      | none => rw [List.filterMap_cons_none ha, filterMap_insertDown_of_none ha]
      | some b =>
        rw [List.filterMap_cons_some ha, List.foldl_cons, filterMap_insertDown_of_some hkey ha h]
  rw [stableSort, stableSort, List.filterMap_reverse]
  exact congrArg List.reverse (hfold [] .nil)

/-- Along a sorted list the key does not decrease. -/
theorem pairwise_stableSort (as : List α) :
    (stableSort (byKey key) as).Pairwise fun a b ↦ key a ≤ key b := by
  have hfold (sorted : List α) (h : sorted.Pairwise fun b c ↦ key c ≤ key b) :
      (as.foldl (fun s a ↦ insertDown (byKey key) a s) sorted).Pairwise
        fun b c ↦ key c ≤ key b := by
    induction as generalizing sorted with
    | nil => exact h
    | cons a as ih => exact ih _ (pairwise_insertDown h a)
  exact List.pairwise_reverse.2 (hfold [] .nil)

/-- Elements of one key keep their order. -/
theorem filter_stableSort (k : κ) (as : List α) :
    (stableSort (byKey key) as).filter (key · = k) = as.filter (key · = k) := by
  have hkey (a b : α) (h : Option.guard (key · = k) a = some b) : key b = key a := by
    rw [(Option.guard_eq_some_iff.1 h).1]
  have hsort : stableSort (byKey key) (as.filterMap (Option.guard (key · = k))) =
      (stableSort (byKey key) as).filterMap (Option.guard (key · = k)) :=
    stableSort_filterMap hkey as
  rw [List.filterMap_eq_filter] at hsort
  rw [← hsort]
  refine stableSort_eq_self fun a ha b hb ↦ ?_
  rw [byKey_eq_false_iff, of_decide_eq_true (List.mem_filter.1 ha).2,
    of_decide_eq_true (List.mem_filter.1 hb).2]

/-- If the key tells the elements apart, their order before sorting does not matter. -/
theorem stableSort_eq_of_perm {as bs : List α} (h : as.Perm bs)
    (hkey : ∀ a ∈ as, ∀ b ∈ as, key a = key b → a = b) :
    stableSort (byKey key) as = stableSort (byKey key) bs := by
  have hbs : as.Perm (stableSort (byKey key) bs) := h.trans (perm_stableSort bs).symm
  refine List.Perm.eq_of_pairwise ?_ (pairwise_stableSort as) (pairwise_stableSort bs)
    ((perm_stableSort as).trans hbs)
  intro a b ha hb hab hba
  exact hkey a ((perm_stableSort as).mem_iff.1 ha) b (hbs.mem_iff.2 hb) (le_antisymm hab hba)

end Key

theorem Workspace.mem_ordered {w : Workspace} {b : Block} : b ∈ w.ordered ↔ b ∈ w.topBlocks :=
  (perm_stableSort w.topBlocks).mem_iff

end Turtle

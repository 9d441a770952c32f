/-!
# Tables

A table is a list of keys with values. The first entry of a key counts, and the order of the
entries is the order in which the keys came.
-/

namespace Turtle.Table

section Lookup

variable {α β : Type} [BEq α] [LawfulBEq α] {key : α} {value : β} {t : List (α × β)}

theorem mem_of_lookup (h : t.lookup key = some value) : (key, value) ∈ t := by
  obtain ⟨l₁, l₂, heq, -⟩ := List.lookup_eq_some_iff.1 h
  simp [heq]

theorem mem_keys_iff : key ∈ t.map (·.1) ↔ (t.lookup key).isSome := by
  rw [List.lookup_isSome_iff, List.mem_map]
  constructor
  · rintro ⟨entry, hentry, rfl⟩
    exact ⟨entry, hentry, BEq.rfl⟩
  · rintro ⟨entry, hentry, hkey⟩
    exact ⟨entry, hentry, (eq_of_beq hkey).symm⟩

theorem notMem_keys_iff : key ∉ t.map (·.1) ↔ t.lookup key = none := by
  rw [mem_keys_iff, Bool.not_eq_true, Option.isSome_eq_false_iff, Option.isNone_iff_eq_none]

/-- With different keys, every entry is the first one of its key. -/
theorem lookup_of_mem (h : (t.map (·.1)).Nodup) (hmem : (key, value) ∈ t) :
    t.lookup key = some value := by
  induction t with
  | nil => cases hmem
  | cons entry rest ih =>
    rw [List.map_cons, List.nodup_cons] at h
    rcases List.mem_cons.1 hmem with rfl | hrest
    · exact List.lookup_cons_self
    · obtain ⟨k, v⟩ := entry
      have hne : key ≠ k := by
        rintro rfl
        exact h.1 (List.mem_map_of_mem (f := (·.1)) hrest)
      rw [List.lookup_cons, beq_eq_false_iff_ne.2 hne]
      exact ih h.2 hrest

end Lookup

/-- Put a value under a key: in place of the first one there, or else at the end. -/
def put {β : Type} (key : String) (value : β) : List (String × β) → List (String × β)
  | [] => [(key, value)]
  | entry :: rest => if entry.1 = key then (key, value) :: rest else entry :: put key value rest

@[simp] theorem lookup_put {β : Type} (key : String) (value : β) (t : List (String × β)) :
    (put key value t).lookup key = some value := by
  induction t with
  | nil => simp [put]
  | cons entry rest ih =>
    simp only [put]
    split
    · simp
    · rename_i h
      have : (key == entry.1) = false := by simpa using fun e ↦ h e.symm
      obtain ⟨k, v⟩ := entry
      rw [List.lookup_cons, this, ih]

theorem lookup_put_of_ne {β : Type} {key key' : String} (h : key' ≠ key) (value : β)
    (t : List (String × β)) : (put key value t).lookup key' = t.lookup key' := by
  have hkey : (key' == key) = false := beq_eq_false_iff_ne.2 h
  induction t with
  | nil => simp [put, h]
  | cons entry rest ih =>
    obtain ⟨k, v⟩ := entry
    simp only [put]
    split
    · rename_i heq
      obtain rfl : k = key := heq
      rw [List.lookup_cons, List.lookup_cons, hkey]
    · rw [List.lookup_cons, List.lookup_cons, ih]

theorem mem_put {β : Type} {key : String} {value : β} {t : List (String × β)}
    {entry : String × β} (h : entry ∈ put key value t) : entry = (key, value) ∨ entry ∈ t := by
  induction t with
  | nil => exact .inl (List.mem_singleton.1 h)
  | cons first rest ih =>
    rw [put] at h
    split at h
    · exact (List.mem_cons.1 h).imp_right (List.mem_cons_of_mem first)
    · rcases List.mem_cons.1 h with rfl | h
      · exact .inr List.mem_cons_self
      · exact (ih h).imp_right (List.mem_cons_of_mem first)

/-- A key that is there keeps its place, and a new one comes last. -/
theorem keys_put {β : Type} (key : String) (value : β) (t : List (String × β)) :
    (put key value t).map (·.1) =
      if key ∈ t.map (·.1) then t.map (·.1) else t.map (·.1) ++ [key] := by
  induction t with
  | nil => rfl
  | cons entry rest ih =>
    simp only [put]
    split
    · rename_i h
      simp [h]
    · rename_i h
      have h' : ¬ key = entry.1 := fun e ↦ h e.symm
      simp only [List.map_cons, ih, List.mem_cons, h', false_or]
      split <;> simp

end Turtle.Table

/-!
# Properties of texts that are put together

A texture is a property that the empty text has and that texts with it keep when they are put
together.
-/

namespace Turtle

/-- Texts with the property may be put together. -/
structure Texture (T : String → Prop) : Prop where
  empty : T ""
  append : ∀ {s t : String}, T s → T t → T (s ++ t)

namespace Texture

variable {T : String → Prop} {l : List String}

theorem join (hT : Texture T) (h : ∀ s ∈ l, T s) : T (String.join l) := by
  induction l with
  | nil => exact hT.empty
  | cons s l ih =>
    rw [String.join_cons]
    exact hT.append (h s List.mem_cons_self) (ih fun t ht ↦ h t (List.mem_cons_of_mem s ht))

theorem intercalate (hT : Texture T) {separator : String} (hseparator : T separator)
    (h : ∀ s ∈ l, T s) : T (separator.intercalate l) := by
  induction l with
  | nil => exact hT.empty
  | cons s l ih =>
    obtain ⟨hs, hl⟩ := List.forall_mem_cons.1 h
    cases l with
    | nil =>
      rw [String.intercalate_singleton]
      exact hs
    | cons t l =>
      rw [String.intercalate_cons_cons]
      exact hT.append (hT.append hs hseparator) (ih hl)

end Texture

end Turtle

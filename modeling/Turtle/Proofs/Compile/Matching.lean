import Turtle.Proofs.Emitter.Flat

/-!
# Computations in step

Two computations of a pass may be followed side by side.  They match if they always end in the same
state, in results that are related, or in the same error.  A recipe that only needs values does the
same for two blocks whose values do.
-/

namespace Turtle

/-- From every state both computations end in the same one, with related results or the same
error. -/
def PassM.Matches {α β : Type} (R : α → β → Prop) (m₀ : PassM α) (m : PassM β) : Prop :=
  ∀ p, (∃ a₀ a q, m₀ p = .ok a₀ q ∧ m p = .ok a q ∧ R a₀ a) ∨
    ∃ e q, m₀ p = .error e q ∧ m p = .error e q

namespace PassM.Matches

variable {α β γ δ : Type} {R : α → β → Prop} {S : γ → δ → Prop} {m₀ : PassM α} {m : PassM β}

theorem pure {a₀ : α} {a : β} (h : R a₀ a) : Matches R (pure a₀) (pure a) :=
  fun p ↦ .inl ⟨a₀, a, p, rfl, rfl, h⟩

theorem throw (e : CompileError) : Matches R (throw e) (throw e) := fun p ↦ .inr ⟨e, p, rfl, rfl⟩

theorem self (m : PassM α) : Matches (· = ·) m m := fun p ↦ by
  cases h : m p with
  | ok a q => exact .inl ⟨a, a, q, rfl, rfl, rfl⟩
  | error e q => exact .inr ⟨e, q, rfl, rfl⟩

theorem bind (h : Matches R m₀ m) {f₀ : α → PassM γ} {f : β → PassM δ}
    (hf : ∀ a₀ a, R a₀ a → Matches S (f₀ a₀) (f a)) : Matches S (m₀ >>= f₀) (m >>= f) := by
  intro p
  rcases h p with ⟨a₀, a, q, h₀, h, hR⟩ | ⟨e, q, h₀, h⟩
  · rw [bind_ok h₀, bind_ok h]
    exact hf a₀ a hR q
  · exact .inr ⟨e, q, bind_error h₀ f₀, bind_error h f⟩

theorem mono (h : Matches R m₀ m) {S : α → β → Prop} (himp : ∀ a₀ a, R a₀ a → S a₀ a) :
    Matches S m₀ m := by
  intro p
  rcases h p with ⟨a₀, a, q, h₀, h, hR⟩ | herror
  · exact .inl ⟨a₀, a, q, h₀, h, himp a₀ a hR⟩
  · exact .inr herror

end PassM.Matches

open PassM (Matches)

namespace Recipe

variable {α : Type} {indent : String} {n₀ n : Neighbours}

/-- A recipe that needs no statements does the same with neighbours that have the same values. -/
theorem matches_flat (hvalue : ∀ input outer, Matches (· = ·) (n₀.value input outer)
      (n.value input outer)) {Q : α → Prop} {r : Recipe α} (h : r.Flat Q) :
    Matches (fun a₀ a ↦ a₀ = a ∧ Q a) (r.run indent n₀) (r.run indent n) := by
  induction r with
  | done a => exact .pure ⟨rfl, h⟩
  | fail e => exact .throw e
  | ask q next ih =>
    have hrespond : Matches (· = ·) (respond indent n₀ q) (respond indent n q) := by
      cases q with
      | value input outer => exact hvalue input outer
      | body input => exact h.1.elim
      | «variable» | procedure | helper => exact .self _
    refine hrespond.bind ?_
    rintro answer _ rfl
    exact ih answer (h.2 answer)
  | hoist name code next ih => exact h.elim

end Recipe

end Turtle

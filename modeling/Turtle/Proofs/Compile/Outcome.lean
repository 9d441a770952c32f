import Turtle.Proofs.Compile.Program

/-!
# How computations of a pass end

A computation of a pass ends well, in a result, or in an error.  What is to hold in either case is
put together along the computation, with an invariant of the state.
-/

namespace Turtle

/-- From every state with the invariant `I` the computation ends in one with `I` and in a result of
which `Q` holds, or in an error of which `E` holds. -/
def PassM.Ends {α : Type} (I : Pass → Prop) (Q : α → Prop) (E : CompileError → Prop)
    (m : PassM α) : Prop :=
  ∀ p, I p → match m p with
    | .ok a q => I q ∧ Q a
    | .error e _ => E e

namespace PassM.Ends

variable {α β : Type} {I : Pass → Prop} {Q : α → Prop} {R : β → Prop} {E : CompileError → Prop}
  {m : PassM α} {p q : Pass}

theorem of_ok (h : Ends I Q E m) (hp : I p) {a : α} (hm : m p = .ok a q) : I q ∧ Q a := by
  have h := h p hp
  rwa [hm] at h

theorem of_error (h : Ends I Q E m) (hp : I p) {e : CompileError} (hm : m p = .error e q) :
    E e := by
  have h := h p hp
  rwa [hm] at h

theorem pure {a : α} (h : Q a) : Ends I Q E (pure a) := fun _ hp ↦ ⟨hp, h⟩

theorem throw {e : CompileError} (h : E e) : Ends I Q E (throw e) := fun _ _ ↦ h

theorem bind (h : Ends I Q E m) {f : α → PassM β} (hf : ∀ a, Q a → Ends I R E (f a)) :
    Ends I R E (m >>= f) := by
  intro p hp
  cases hm : m p with
  | ok a q =>
    obtain ⟨hq, ha⟩ := h.of_ok hp hm
    rw [PassM.bind_ok hm]
    exact hf a ha q hq
  | error e q =>
    rw [PassM.bind_error hm]
    exact h.of_error hp hm

theorem mono (h : Ends I Q E m) {Q' : α → Prop} (himp : ∀ a, Q a → Q' a) : Ends I Q' E m := by
  rw [← bind_pure m]
  exact h.bind fun a ha ↦ pure (himp a ha)

theorem modifyGet {f : Pass → α × Pass} (h : ∀ p, I p → Q (f p).1 ∧ I (f p).2) :
    Ends I Q E (modifyGet f) := fun p hp ↦ (h p hp).symm

theorem modify {f : Pass → Pass} (h : ∀ p, I p → I (f p)) :
    Ends I (fun _ ↦ True) E (modify f) := fun p hp ↦ ⟨h p hp, trivial⟩

theorem mapM {γ : Type} {f : γ → PassM α} {xs : List γ} (h : ∀ x ∈ xs, Ends I Q E (f x)) :
    Ends I (fun as ↦ ∀ a ∈ as, Q a) E (xs.mapM f) := by
  induction xs with
  | nil => exact pure nofun
  | cons x xs ih =>
    obtain ⟨hx, hxs⟩ := List.forall_mem_cons.1 h
    rw [List.mapM_cons]
    exact hx.bind fun a ha ↦ (ih hxs).bind fun as has ↦ pure (List.forall_mem_cons.2 ⟨ha, has⟩)

end PassM.Ends

end Turtle

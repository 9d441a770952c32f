import Turtle.Compile.Compiler

/-!
# Following recipes

A recipe is followed request by request, so a recipe that is built from others is followed part by
part.  A block that is compiled successfully and has nothing behind it leaves exactly what its
emitter writes.
-/

namespace Turtle

open Logo (Order)

namespace Recipe

protected theorem id_map {α : Type} (r : Recipe α) : id <$> r = r := by
  induction r with
  | done a => rfl
  | fail e => rfl
  | ask q next ih => exact congrArg (ask q) (funext ih)
  | hoist name code next ih => exact congrArg (hoist name code) ih

protected theorem bind_assoc {α β γ : Type} (r : Recipe α) (f : α → Recipe β) (g : β → Recipe γ) :
    r >>= f >>= g = r >>= fun a ↦ f a >>= g := by
  induction r with
  | done a => rfl
  | fail e => rfl
  | ask q next ih => exact congrArg (ask q) (funext ih)
  | hoist name code next ih => exact congrArg (hoist name code) ih

instance : LawfulMonad Recipe := .mk' Recipe Recipe.id_map (fun _ _ ↦ rfl) Recipe.bind_assoc

variable {α β : Type} (indent : String) (n : Neighbours)

/-- Following a recipe and then another one. -/
theorem run_bind (r : Recipe α) (f : α → Recipe β) :
    (r >>= f).run indent n = r.run indent n >>= fun a ↦ (f a).run indent n := by
  induction r with
  | done a => rfl
  | fail e => rfl
  | ask q next ih =>
    change (respond indent n q >>= fun answer ↦ (next answer >>= f).run indent n) = _
    rw [run, bind_assoc]
    exact congrArg _ (funext ih)
  | hoist name code next ih =>
    change (n.finish code >>= fun whole ↦ modify (·.define name whole) >>= fun _ ↦
      (next >>= f).run indent n) = _
    rw [run, ih]
    simp only [bind_assoc]

theorem run_pure (a : α) : (pure a : Recipe α).run indent n = pure a := rfl

end Recipe

variable {α β : Type}

/-- A computation that goes well hands its result and its state on. -/
theorem PassM.bind_ok {m : PassM α} {p q : Pass} {a : α} (h : m p = .ok a q) (f : α → PassM β) :
    (m >>= f) p = f a q := by
  change EStateM.bind m f p = _
  rw [EStateM.bind, h]

/-- A computation that goes well has parts that do. -/
theorem PassM.of_bind_ok {m : PassM α} {f : α → PassM β} {p q : Pass} {b : β}
    (h : (m >>= f) p = .ok b q) : ∃ a p', m p = .ok a p' ∧ f a p' = .ok b q := by
  change EStateM.bind m f p = _ at h
  rw [EStateM.bind] at h
  split at h
  case h_1 a p' heq => exact ⟨a, p', heq, h⟩
  case h_2 => cases h

/-- An error ends a computation. -/
theorem PassM.bind_error {m : PassM α} {p q : Pass} {e : CompileError} (h : m p = .error e q)
    (f : α → PassM β) : (m >>= f) p = .error e q := by
  change EStateM.bind m f p = _
  rw [EStateM.bind, h]

/-- A computation that ends in an error has a part that does. -/
theorem PassM.of_bind_error {m : PassM α} {f : α → PassM β} {p q : Pass} {e : CompileError}
    (h : (m >>= f) p = .error e q) :
    m p = .error e q ∨ ∃ a p', m p = .ok a p' ∧ f a p' = .error e q := by
  change EStateM.bind m f p = _ at h
  rw [EStateM.bind] at h
  split at h
  case h_1 a p' heq => exact .inr ⟨a, p', heq, h⟩
  case h_2 heq =>
    cases h
    exact .inl heq

/-- A computation whose result is known goes well. -/
theorem PassM.exists_ok {m : PassM α} {p : Pass} {a : α} (h : m.run' p = some a) :
    ∃ q, m p = .ok a q := by
  delta EStateM.run' at h
  split at h
  case h_1 a' q heq =>
    cases h
    exact ⟨q, heq⟩
  case h_2 => cases h

namespace Recipe

/-- An operand is what the neighbours answer, or the default in its place. -/
theorem run_operand {indent : String} {n : Neighbours} {input : String} {outer : Order}
    {p q : Pass} {code : String} (h : n.value input outer p = .ok code q) (default : String)
    (f : String → Recipe β) :
    (operand input outer default >>= f).run indent n p =
      (f (if code == "" then default else code)).run indent n q :=
  PassM.bind_ok h _

end Recipe

namespace Compiler

/-- A plugged block without a next one is finished as it is. -/
theorem finish_plugged (c : Compiler) {b : Block} (hnext : b.next = none) (code : String) :
    c.finish b false true code = pure code := by
  rw [finish, hnext, finishWith]
  simp [chain]

/-- An enabled block is compiled by the recipe of its emitter. -/
theorem block_of_emitter (c : Compiler) {b : Block} {e : Emitter} (henabled : b.head.enabled)
    (he : c.emitter? b.head.kind = some e) (alone plugged : Bool) :
    c.block b alone plugged =
      (e.emit (c.view e b)).run c.options.indent (c.neighbours b) >>=
        c.settle e b.head (c.finish b alone plugged) := by
  rw [block_eq, if_pos henabled, he]

theorem settle_value (c : Compiler) {e : Emitter} (h : e.shape = .value) (head : Head)
    (finish : String → PassM String) (code : String) (order : Order) :
    c.settle e head finish (.value code order) = finish code >>= fun s ↦ pure (.value s order) := by
  rw [settle, if_pos h]

/-- A block of a kind of expression is the expression that the emitter writes, with what belongs to
the block. -/
theorem block_written (c : Compiler) {b : Block} {f : View → Recipe (String × Order)}
    (henabled : b.head.enabled) (hemitter : c.emitter? b.head.kind = some (.value f))
    (alone plugged : Bool) :
    c.block b alone plugged =
      (f (c.view (.value f) b)).run c.options.indent (c.neighbours b) >>= fun written ↦
        c.finish b alone plugged written.1 >>= fun code ↦ pure (.value code written.2) := by
  rw [c.block_of_emitter henabled hemitter]
  change (f _ >>= fun written ↦ pure (Emission.value written.1 written.2)).run _ _ >>= _ = _
  rw [Recipe.run_bind, bind_assoc]
  refine bind_congr fun written ↦ ?_
  rw [Recipe.run_pure, pure_bind, c.settle_value rfl]

/-- A plugged block of a kind of expression is the expression that the emitter writes. -/
theorem block_value (c : Compiler) {b : Block} {f : View → Recipe (String × Order)}
    (henabled : b.head.enabled) (hnext : b.next = none)
    (hemitter : c.emitter? b.head.kind = some (.value f)) :
    c.block b false true =
      (f (c.view (.value f) b)).run c.options.indent (c.neighbours b) >>= fun written ↦
        pure (.value written.1 written.2) := by
  rw [c.block_written henabled hemitter]
  simp only [c.finish_plugged hnext, pure_bind]

end Compiler

end Turtle

import Turtle.Proofs.Logo.Printing

/-!
# The machine reads what is written

The machine is run on the tokens of an expression that leans to the left.  It need not end with the
expression as a whole, as an operation stays open on the stack until something that binds less
arrives; but it ends in a state that nothing binding less can tell from having read it.
-/

namespace Turtle.Logo

namespace Expr

/-- Tokens of order `inner` where `outer` is demanded. -/
def enclose (outer inner : Order) (ts : List Token) : List Token :=
  if needsParens outer inner then .opening :: ts ++ [.closing] else ts

/-- The tokens of an expression. -/
def tokens : Expr → List Token
  | literal digits => [.literal digits]
  | named name => [.named name]
  | negated e => .sign :: enclose .unaryNegation e.order e.tokens
  | operation op a b =>
    enclose op.order a.order a.tokens ++ .operator op :: enclose op.order b.order b.tokens
  | unary f x => .word f :: x.tokens
  | binary f x y => .word f :: x.tokens ++ y.tokens

end Expr

theorem run_append (r : Reading) (ts us : List Token) :
    run r (ts ++ us) = (run r ts).bind (run · us) := by
  induction ts generalizing r with
  | nil => rfl
  | cons t ts ih =>
    rw [List.cons_append, run, run, Option.bind_assoc]
    exact congrArg _ (funext ih)

theorem settle_of_lt {level : Nat} {fs : List Frame} (h : ∀ f ∈ fs.head?, level < f.level)
    (e : Expr) : settle level e fs = (e, fs) := by
  cases fs with
  | nil => rfl
  | cons f fs => rw [settle, if_neg (Nat.not_le.2 (h f rfl))]

theorem settle_cons {level : Nat} {f : Frame} (h : f.level ≤ level) (e : Expr) (fs : List Frame) :
    settle level e (f :: fs) = settle level (f.close e) fs := by rw [settle, if_pos h]

/-- Having read `e` in the frames `fs`, as far as anything can tell that binds no tighter than
`least`. -/
def Reached (least : Nat) (e : Expr) (fs : List Frame) (r : Reading) : Prop :=
  ∃ e' fs', r = .read e' fs' ∧ ∀ level, least ≤ level → settle level e' fs' = settle level e fs

/-- An expression may be read in these frames: if it is an operation, then no frame is closed by its
operator. -/
def Admits (fs : List Frame) (e : Expr) : Prop :=
  ∀ op a b, e = .operation op a b → ∀ f ∈ fs.head?, op.order.level < f.level

theorem Operator.level_lt (op : Operator) : op.order.level < Order.procedure.level := by
  cases op <;> decide

theorem procedure_lt_loose : Order.procedure.level < Order.loose.level := by decide

theorem notMem_unaryPrimitives : ∀ f ∈ binaryPrimitives, f ∉ unaryPrimitives := by decide

theorem level_le_procedure (e : Expr) : e.order.level ≤ Order.procedure.level := by
  cases e with
  | operation op a b => exact Nat.le_of_lt op.level_lt
  | literal _ | named _ | negated _ | unary _ _ | binary _ _ _ => simp only [Expr.order]; decide

/-- Frames of primitives and parentheses admit every expression. -/
theorem admits_cons {f : Frame} (h : Order.procedure.level ≤ f.level) (fs : List Frame) (e : Expr) :
    Admits (f :: fs) e := by
  rintro op - - - g hg
  obtain rfl := Option.some.inj hg
  exact Nat.lt_of_lt_of_le op.level_lt h

theorem level_le_of_needsParens {outer inner : Order} (h : needsParens outer inner = false) :
    inner.level ≤ outer.level := by
  revert h
  cases outer <;> cases inner <;> decide

theorem level_lt_of_needsParens {op : Operator} {inner : Order}
    (h : needsParens op.order inner = false)
    (hne : ¬(inner = op.order ∧ op.order.isAssociative)) : inner.level < op.order.level := by
  revert h hne
  cases op <;> cases inner <;> decide

/-- Whether a token begins an expression. -/
def Token.opens : Token → Bool
  | operator _ | closing => false
  | literal _ | named _ | word _ | sign | opening => true

theorem opens_enclose (outer inner : Order) {ts : List Token}
    (h : ∃ t us, ts = t :: us ∧ t.opens) :
    ∃ t us, Expr.enclose outer inner ts = t :: us ∧ t.opens := by
  unfold Expr.enclose
  split
  · exact ⟨.opening, _, rfl, rfl⟩
  · exact h

theorem opens_tokens (e : Expr) : ∃ t us, e.tokens = t :: us ∧ t.opens := by
  induction e with
  | operation op a b iha _ =>
    obtain ⟨t, us, heq, ht⟩ := opens_enclose op.order a.order iha
    exact ⟨t, _, by rw [Expr.tokens, heq]; rfl, ht⟩
  | literal _ | named _ | negated _ _ | unary _ _ _ | binary _ _ _ _ _ => exact ⟨_, _, rfl, rfl⟩

/-- A token that begins an expression ends the first input of a primitive. -/
theorem step_of_opens {t : Token} (ht : t.opens) {e x : Expr} {f : String} {fs rest : List Frame}
    (h : settle Order.procedure.level e fs = (x, .first f :: rest)) :
    step (.read e fs) t = step (.due (.second f x :: rest)) t := by
  cases t with
  | operator _ | closing => cases ht
  | literal _ | named _ | word _ | sign | opening => simp only [step, h]

/-- The tokens of an expression are read as the expression. -/
def Reads (e : Expr) : Prop :=
  ∀ fs, Admits fs e →
    ∃ r, run (.due fs) e.tokens = some r ∧ Reached e.order.level e fs r

/-- Tokens in parentheses are read as well, in any frames. -/
theorem Reads.enclose {e : Expr} (h : Reads e) (outer : Order) (fs : List Frame)
    (hadmits : needsParens outer e.order = false → Admits fs e) :
    ∃ r, run (.due fs) (Expr.enclose outer e.order e.tokens) = some r ∧
      Reached (min outer.level e.order.level) e fs r := by
  unfold Expr.enclose
  split
  case isFalse hparens =>
    have hparens := Bool.eq_false_iff.2 hparens
    obtain ⟨r, hrun, e', fs', heq, hsettle⟩ := h fs (hadmits hparens)
    rw [Nat.min_eq_right (level_le_of_needsParens hparens)]
    exact ⟨r, hrun, e', fs', heq, hsettle⟩
  case isTrue =>
    obtain ⟨r, hrun, e', fs', rfl, hsettle⟩ :=
      h (.group :: fs) (admits_cons (f := .group) (Nat.le_of_lt procedure_lt_loose) fs e)
    refine ⟨.read e fs, ?_, e, fs, rfl, fun _ _ ↦ rfl⟩
    have hgroup : settle Order.procedure.level e' fs' = (e, .group :: fs) := by
      rw [hsettle _ (level_le_procedure e), settle_of_lt]
      rintro f hf
      obtain rfl := Option.some.inj hf
      exact procedure_lt_loose
    rw [List.cons_append, run]
    simp only [step, begin, Option.bind_some]
    rw [run_append, hrun, Option.bind_some, run, step, hgroup]
    rfl

theorem reads_negated {e : Expr} (h : Reads e) : Reads (.negated e) := by
  intro fs _
  have hadmits : needsParens .unaryNegation e.order = false → Admits (.negation :: fs) e := by
    rintro hparens op a b rfl
    have hlevel : op.order.level ≤ Order.unaryNegation.level := level_le_of_needsParens hparens
    cases op <;> exact absurd hlevel (by decide)
  obtain ⟨r, hrun, e', fs', rfl, hsettle⟩ := h.enclose .unaryNegation (.negation :: fs) hadmits
  refine ⟨_, hrun, e', fs', rfl, fun level hlevel ↦ ?_⟩
  rw [hsettle level (Nat.le_trans (Nat.min_le_left _ _) hlevel), settle_cons hlevel]
  rfl

theorem reads_operation {op : Operator} {a b : Expr} (ha : Reads a) (hb : Reads b)
    (hlean : ¬(b.order = op.order ∧ op.order.isAssociative)) : Reads (.operation op a b) := by
  intro fs hfs
  have hlt : ∀ f ∈ fs.head?, op.order.level < f.level := hfs op a b rfl
  have hadmits : needsParens op.order a.order = false → Admits fs a := by
    rintro hparens op' x y rfl f hf
    exact Nat.lt_of_le_of_lt (level_le_of_needsParens hparens) (hlt f hf)
  have hadmits' : needsParens op.order b.order = false → Admits (.left op a :: fs) b := by
    rintro hparens op' x y rfl f hf
    obtain rfl := Option.some.inj hf
    exact level_lt_of_needsParens hparens hlean
  obtain ⟨_, hruna, a', fs', rfl, hsettlea⟩ := ha.enclose op.order fs hadmits
  obtain ⟨_, hrunb, b', fs'', rfl, hsettleb⟩ := hb.enclose op.order (.left op a :: fs) hadmits'
  have hleft : settle op.order.level a' fs' = (a, fs) := by
    rw [hsettlea _ (Nat.min_le_left _ _), settle_of_lt hlt]
  refine ⟨.read b' fs'', ?_, b', fs'', rfl, fun level hlevel ↦ ?_⟩
  · rw [Expr.tokens, run_append, hruna, Option.bind_some, run, step, hleft]
    exact hrunb
  · rw [hsettleb level (Nat.le_trans (Nat.min_le_left _ _) hlevel),
      settle_cons (show (Frame.left op a).level ≤ level from hlevel)]
    rfl

theorem reads_unary {f : String} {x : Expr} (hf : f ∈ unaryPrimitives) (h : Reads x) :
    Reads (.unary f x) := by
  intro fs _
  obtain ⟨_, hrun, x', fs', rfl, hsettle⟩ :=
    h (.argument f :: fs) (admits_cons (Nat.le_refl _) fs x)
  refine ⟨.read x' fs', ?_, x', fs', rfl, fun level hlevel ↦ ?_⟩
  · rw [Expr.tokens, run]
    simp only [step, begin, if_pos hf, Option.bind_some]
    exact hrun
  · rw [hsettle level (Nat.le_trans (level_le_procedure x) hlevel), settle_cons hlevel]
    rfl

theorem reads_binary {f : String} {x y : Expr} (hf : f ∈ binaryPrimitives) (hx : Reads x)
    (hy : Reads y) : Reads (.binary f x y) := by
  intro fs _
  obtain ⟨_, hrunx, x', fs', rfl, hsettlex⟩ :=
    hx (.first f :: fs) (admits_cons (f := .first f) (Nat.le_of_lt procedure_lt_loose) fs x)
  obtain ⟨_, hruny, y', fs'', rfl, hsettley⟩ :=
    hy (.second f x :: fs) (admits_cons (Nat.le_refl _) fs y)
  have hfirst : settle Order.procedure.level x' fs' = (x, .first f :: fs) := by
    rw [hsettlex _ (level_le_procedure x), settle_of_lt]
    rintro g hg
    obtain rfl := Option.some.inj hg
    exact procedure_lt_loose
  have hne : f ∉ unaryPrimitives := notMem_unaryPrimitives f hf
  obtain ⟨t, us, heq, ht⟩ := opens_tokens y
  refine ⟨.read y' fs'', ?_, y', fs'', rfl, fun level hlevel ↦ ?_⟩
  · rw [heq, run, ← step_of_opens ht hfirst] at hruny
    rw [Expr.tokens, List.cons_append, run]
    simp only [step, begin, if_neg hne, if_pos hf, Option.bind_some]
    rw [run_append, hrunx, Option.bind_some, heq, run]
    exact hruny
  · rw [hsettley level (Nat.le_trans (level_le_procedure y) hlevel), settle_cons hlevel]
    rfl

/-- The machine reads an expression that leans to the left. -/
theorem reads_of_leansLeft {e : Expr} (hwf : e.WellFormed) (hlean : e.LeansLeft) : Reads e := by
  induction e with
  | literal _ | named _ => exact fun fs _ ↦ ⟨_, rfl, _, fs, rfl, fun _ _ ↦ rfl⟩
  | negated e ih => exact reads_negated (ih hwf hlean)
  | operation op a b iha ihb =>
    exact reads_operation (iha hwf.1 hlean.1) (ihb hwf.2 hlean.2.1) hlean.2.2
  | unary f x ih => exact reads_unary hwf.1 (ih hwf.2 hlean)
  | binary f x y ihx ihy =>
    exact reads_binary hwf.1 (ihx hwf.2.1 hlean.1) (ihy hwf.2.2 hlean.2)

/-- What has been read once all tokens are there. -/
theorem Reads.result {e : Expr} (h : Reads e) (outer : Order) :
    (run (.due []) (Expr.enclose outer e.order e.tokens)).bind Reading.result? = some e := by
  have hadmits : needsParens outer e.order = false → Admits [] e := fun _ _ _ _ _ f hf ↦ nomatch hf
  obtain ⟨_, hrun, e', fs', rfl, hsettle⟩ := h.enclose outer [] hadmits
  have hend := hsettle Order.procedure.level
    (Nat.le_trans (Nat.min_le_right _ _) (level_le_procedure e))
  rw [hrun, Option.bind_some, Reading.result?, hend]
  rfl

end Turtle.Logo

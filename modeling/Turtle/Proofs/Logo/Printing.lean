import Turtle.Proofs.Logo.Expression

/-!
# Writing expressions

An expression is written with parentheses where `needsParens` asks for them.  Where an associative
operator is nested in itself no parentheses are written, so the text does not tell how such a chain
is nested: every expression has the same text as its form in which all chains lean to the left.
-/

namespace Turtle.Logo.Expr

/-- What holds an expression together. -/
def order : Expr → Order
  | literal _ | named _ => .atomic
  | negated _ => .unaryNegation
  | operation op _ _ => op.order
  | unary _ _ | binary _ _ _ => .procedure

/-- A text of order `inner` where `outer` is demanded. -/
def wrap (outer inner : Order) (s : String) : String :=
  if needsParens outer inner then "(" ++ s ++ ")" else s

/-- How an expression is written. -/
def text : Expr → String
  | literal digits => digits
  | named name => ":" ++ name
  | negated e => "-" ++ wrap .unaryNegation e.order e.text
  | operation op a b =>
    wrap op.order a.order a.text ++ " " ++ op.symbol ++ " " ++ wrap op.order b.order b.text
  | unary f x => f ++ " " ++ x.text
  | binary f x y => f ++ " " ++ x.text ++ " " ++ y.text

/-- How an expression is written where an order is demanded. -/
def operand (outer : Order) (e : Expr) : String := wrap outer e.order e.text

/-- The literals, names and primitives in an expression are what they should be. -/
def WellFormed : Expr → Prop
  | literal digits => isNumeral digits.toList
  | named name => Identifier.isLegal name.toList
  | negated e => e.WellFormed
  | operation _ a b => a.WellFormed ∧ b.WellFormed
  | unary f x => f ∈ unaryPrimitives ∧ x.WellFormed
  | binary f x y => f ∈ binaryPrimitives ∧ x.WellFormed ∧ y.WellFormed

/-! ## Leaning to the left -/

/-- No associative operator has itself at the top of its right operand. -/
def LeansLeft : Expr → Prop
  | literal _ | named _ => True
  | negated e | unary _ e => e.LeansLeft
  | operation op a b =>
    a.LeansLeft ∧ b.LeansLeft ∧ ¬(b.order = op.order ∧ op.order.isAssociative)
  | binary _ x y => x.LeansLeft ∧ y.LeansLeft

/-- An operation that leans to the left if its operands do. -/
def attach (op : Operator) (a : Expr) : Expr → Expr
  | operation op' b c =>
    if op'.order = op.order ∧ op.order.isAssociative then operation op' (attach op a b) c
    else operation op a (operation op' b c)
  | b => operation op a b

/-- The form of an expression that leans to the left. -/
def leanLeft : Expr → Expr
  | literal digits => literal digits
  | named name => named name
  | negated e => negated e.leanLeft
  | operation op a b => attach op a.leanLeft b.leanLeft
  | unary f x => unary f x.leanLeft
  | binary f x y => binary f x.leanLeft y.leanLeft

/-- An associative operator is known by its order. -/
theorem eq_of_order_eq {op op' : Operator} (h : op'.order = op.order)
    (hassoc : op.order.isAssociative) : op' = op := by
  revert h hassoc
  cases op <;> cases op' <;> decide

theorem needsParens_self {o : Order} (h : o.isAssociative) : needsParens o o = false := by
  revert h
  cases o <;> decide

/-- What attaching does: it leaves the operation as it is, or rotates it and goes on to the left. -/
theorem attach_induct (op : Operator) (a : Expr) {P : Expr → Prop}
    (rotate : ∀ b c, op.order.isAssociative → P b → P (operation op b c))
    (stop : ∀ b, ¬(b.order = op.order ∧ op.order.isAssociative) → attach op a b = operation op a b →
      P b) (b : Expr) : P b := by
  induction b with
  | operation op' b c ihb ihc =>
    by_cases h : op'.order = op.order ∧ op.order.isAssociative
    · obtain rfl := eq_of_order_eq h.1 h.2
      exact rotate b c h.2 ihb
    · exact stop _ h (if_neg h)
  | literal _ | named _ | negated _ | unary _ _ | binary _ _ _ =>
    refine stop _ ?_ rfl
    cases op <;> simp [order, Operator.order, Order.isAssociative]

theorem attach_rotate {op : Operator} (a b c : Expr) (h : op.order.isAssociative) :
    attach op a (operation op b c) = operation op (attach op a b) c := by
  rw [attach, if_pos ⟨rfl, h⟩]

theorem order_attach (op : Operator) (a b : Expr) : (attach op a b).order = op.order := by
  induction b using attach_induct op a with
  | rotate b c h ih => rw [attach_rotate a b c h]; rfl
  | stop b _ heq => rw [heq]; rfl

theorem text_operation (op : Operator) (a b : Expr) : (operation op a b).text =
    operand op.order a ++ " " ++ op.symbol ++ " " ++ operand op.order b := rfl

/-- An associative operator takes itself without parentheses. -/
theorem operand_self {o : Order} (h : o.isAssociative) {e : Expr} (he : e.order = o) :
    operand o e = e.text := by
  rw [operand, wrap, he, needsParens_self h]
  rfl

theorem text_attach (op : Operator) (a b : Expr) :
    (attach op a b).text = (operation op a b).text := by
  induction b using attach_induct op a with
  | rotate b c h ih =>
    have hright : operand op.order (operation op b c) = (operation op b c).text :=
      operand_self h rfl
    rw [attach_rotate a b c h, text_operation, operand_self h (order_attach op a b), ih,
      text_operation op a (operation op b c), hright]
    simp only [text_operation, String.append_assoc]
  | stop b _ heq => rw [heq]

theorem WellFormed.attach {op : Operator} {a b : Expr} (ha : a.WellFormed) (hb : b.WellFormed) :
    (attach op a b).WellFormed := by
  induction b using attach_induct op a with
  | rotate b c h ih =>
    rw [attach_rotate a b c h]
    exact ⟨ih hb.1, hb.2⟩
  | stop b _ heq => rw [heq]; exact ⟨ha, hb⟩

theorem LeansLeft.attach {op : Operator} {a b : Expr} (ha : a.LeansLeft) (hb : b.LeansLeft) :
    (attach op a b).LeansLeft := by
  induction b using attach_induct op a with
  | rotate b c h ih =>
    rw [attach_rotate a b c h]
    exact ⟨ih hb.1, hb.2⟩
  | stop b hne heq => rw [heq]; exact ⟨ha, hb, hne⟩

theorem reassociates_attach (op : Operator) (a b : Expr) :
    Reassociates (operation op a b) (attach op a b) := by
  induction b using attach_induct op a with
  | rotate b c h ih =>
    rw [attach_rotate a b c h]
    exact (Reassociates.rotate h a b c).trans (.operation op ih (.refl c))
  | stop b _ heq => rw [heq]; exact .refl _

theorem order_leanLeft (e : Expr) : e.leanLeft.order = e.order := by
  cases e with
  | operation op a b => exact order_attach op _ _
  | literal _ | named _ | negated _ | unary _ _ | binary _ _ _ => rfl

theorem text_leanLeft (e : Expr) : e.leanLeft.text = e.text := by
  induction e with
  | literal _ | named _ => rfl
  | negated e ih => simp only [leanLeft, text, ih, order_leanLeft]
  | operation op a b iha ihb =>
    simp only [leanLeft, text_attach, text, iha, ihb, order_leanLeft]
  | unary f x ih => simp only [leanLeft, text, ih]
  | binary f x y ihx ihy => simp only [leanLeft, text, ihx, ihy]

theorem WellFormed.leanLeft {e : Expr} (h : e.WellFormed) : e.leanLeft.WellFormed := by
  induction e with
  | literal _ | named _ => exact h
  | negated e ih => exact ih h
  | operation op a b iha ihb => exact (iha h.1).attach (ihb h.2)
  | unary f x ih => exact ⟨h.1, ih h.2⟩
  | binary f x y ihx ihy => exact ⟨h.1, ihx h.2.1, ihy h.2.2⟩

theorem leansLeft_leanLeft (e : Expr) : e.leanLeft.LeansLeft := by
  induction e with
  | literal _ | named _ => trivial
  | negated e ih => exact ih
  | operation op a b iha ihb => exact iha.attach ihb
  | unary f x ih => exact ih
  | binary f x y ihx ihy => exact ⟨ihx, ihy⟩

theorem reassociates_leanLeft (e : Expr) : Reassociates e e.leanLeft := by
  induction e with
  | literal _ | named _ => exact .refl _
  | negated e ih => exact .negated ih
  | operation op a b iha ihb =>
    exact .trans (.operation op iha ihb) (reassociates_attach op _ _)
  | unary f x ih => exact .unary f ih
  | binary f x y ihx ihy => exact .binary f ihx ihy

end Turtle.Logo.Expr

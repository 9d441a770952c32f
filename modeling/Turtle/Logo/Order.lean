import Turtle.Number.Binary64

/-!
# Binding strength

Every emitted expression carries the strength of its outermost operator, and every place that takes
an expression demands one. Comparing the two tells where parentheses are needed.
-/

namespace Turtle.Logo

/-- How an expression is held together, the tightest first. -/
inductive Order where
  /-- A literal, a variable, or parentheses. -/
  | atomic
  /-- `-x` -/
  | unaryNegation
  /-- `x * y` -/
  | multiplication
  /-- `x / y` -/
  | division
  /-- `x - y` -/
  | subtraction
  /-- `x + y` -/
  | addition
  /-- `x = y`, `x < y`, … -/
  | comparison
  /-- A primitive or procedure with its inputs behind it. -/
  | procedure
  /-- Nothing holds it together, and a place that demands this takes anything. -/
  | loose
deriving DecidableEq, Repr

namespace Order

/-- All orders, the tightest first. -/
def all : List Order :=
  [atomic, unaryNegation, multiplication, division, subtraction, addition, comparison, procedure,
    loose]

/-- The strength in tenths; a larger number binds less. -/
def tenths : Order → Nat
  | atomic => 0
  | unaryNegation => 10
  | multiplication => 21
  | division => 22
  | subtraction => 31
  | addition => 32
  | comparison => 40
  | procedure => 50
  | loose => 990

/-- The precedence level; operators of one level are read from left to right. -/
def level (o : Order) : Nat := o.tenths / 10

/-- The strength as a number. -/
def strength (o : Order) : Binary64 := .ofRatio false o.tenths 10

instance : LT Order := ⟨fun a b ↦ a.tenths < b.tenths⟩

instance (a b : Order) : Decidable (a < b) := inferInstanceAs (Decidable (a.tenths < b.tenths))

/-- Whether an operator may be nested in itself on either side without parentheses. -/
def isAssociative (o : Order) : Bool := o == multiplication || o == addition

end Order

/-- Whether an expression of order `inner` needs parentheses where `outer` is demanded. -/
def needsParens (outer inner : Order) : Bool :=
  if outer.level > inner.level then false
  else if outer.level = inner.level ∧ (outer = .atomic ∨ outer = .loose) then false
  else !(outer == inner && outer.isAssociative)

/-- What nothing can take apart needs no parentheses. -/
theorem needsParens_inner_atomic (outer : Order) : needsParens outer .atomic = false := by
  cases outer <;> decide

end Turtle.Logo

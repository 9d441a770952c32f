import Mathlib.Data.List.TakeWhile
import Turtle.Proofs.Compile.Session
import Turtle.Proofs.Emitter.Formula

/-!
# Computed positions

Where a position is computed, the program moves it by an integer and negates it if so asked.  What
is written is the text of a sum or a difference, or of its negation.  So it is read back as that
expression, and it can stand wherever an operand of the order that was asked for can.
-/

namespace Turtle

open Logo (Order Operator Expr)

namespace Logo

/-- The digits of an integer that is not negative are a numeral. -/
theorem isNumeral_toString {k : Int} (hk : 0 ≤ k) : isNumeral (toString k).toList := by
  obtain ⟨n, rfl⟩ := Int.eq_ofNat_of_zero_le hk
  have hdigits : (toString (n : Int)).toList = Nat.toDigits 10 n := String.toList_ofList
  have hall : ∀ c ∈ Nat.toDigits 10 n, c.isDigit := fun c hc ↦
    Nat.isDigit_of_mem_toDigits (by decide) (by decide) hc
  rw [hdigits, isNumeral, List.takeWhile_eq_self_iff.2 hall, List.dropWhile_eq_nil_iff.2 hall]
  simp [Nat.toDigits_ne_nil]

/-- An operator that binds more than a place demands needs no parentheses there. -/
theorem needsParens_of_lt {outer inner : Order} (h : inner.level < outer.level) :
    needsParens outer inner = false := by
  rw [needsParens, if_pos h]

theorem needsParens_atomic {inner : Order} (h : inner ≠ .atomic) :
    needsParens .atomic inner = true := by
  revert h
  cases inner <;> decide

/-- What nothing can take apart is never put in parentheses. -/
theorem ne_atomic_of_needsParens {outer inner : Order} (h : needsParens outer inner) :
    inner ≠ .atomic := by
  rintro rfl
  rw [needsParens_inner_atomic] at h
  cases h

/-- A text that is read as an expression can stand as an operand of an order: either it is in
parentheses, or what holds it together needs none there. -/
def Stands (outer : Order) (code : String) (e : Expr) : Prop :=
  (∃ inner, code = "(" ++ inner ++ ")" ∧ read? inner = some e) ∨ needsParens outer e.order = false

namespace Expr

variable {e : Expr} {k : Int} {negate : Bool} {order : Order}

/-- An expression moved by an integer: what is added to it, or taken away from it, is a literal. -/
def moved (k : Int) (e : Expr) : Expr :=
  if 0 < k then .operation .plus e (.literal (toString k))
  else if k < 0 then .operation .minus e (.literal (toString (-k)))
  else e

/-- An expression moved by an integer, and then negated if so asked. -/
def adjusted (k : Int) (negate : Bool) (e : Expr) : Expr :=
  if negate then .negated (e.moved k) else e.moved k

theorem WellFormed.moved (h : e.WellFormed) (k : Int) : (e.moved k).WellFormed := by
  unfold Expr.moved
  split
  case isTrue => exact ⟨h, isNumeral_toString (by omega)⟩
  case isFalse =>
    split
    case isTrue => exact ⟨h, isNumeral_toString (by omega)⟩
    case isFalse => exact h

theorem WellFormed.adjusted (h : e.WellFormed) (k : Int) (negate : Bool) :
    (e.adjusted k negate).WellFormed := by
  cases negate with
  | true | false => exact h.moved k

/-! ## The text of an adjusted expression -/

theorem order_moved (hk : k ≠ 0) (negate : Bool) (order : Order) :
    (e.moved k).order = adjustmentOrder k negate order := by
  unfold moved adjustmentOrder
  split
  · rfl
  · rw [if_pos (by omega), if_pos (by omega)]
    rfl

/-- The text of an expression that is moved. -/
theorem text_moved (hk : k ≠ 0) (negate : Bool) (order : Order) :
    (e.moved k).text = plusText (e.operand (adjustmentOrder k negate order)) k := by
  have hliteral (n : Int) (outer : Order) : (literal (toString n)).operand outer = toString n :=
    operand_atomic outer rfl
  have hsymbol (op : Operator) (a : String) :
      a ++ " " ++ op.symbol ++ " " = a ++ (" " ++ op.symbol ++ " ") := by
    simp only [String.append_assoc]
  unfold moved plusText adjustmentOrder
  split
  · rw [text_operation, hliteral, hsymbol]
    rfl
  · rw [if_pos (by omega), if_pos (by omega), if_pos (by omega), text_operation, hliteral, hsymbol]
    rfl

/-- The text of an expression that is adjusted at all. -/
theorem text_adjusted (h : ¬(k = 0 ∧ negate = false)) (order : Order) :
    (e.adjusted k negate).text =
      let moved := plusText (e.operand (adjustmentOrder k negate order)) k
      if negate then (if k == 0 then "-" ++ moved else "-(" ++ moved ++ ")") else moved := by
  cases negate with
  | false =>
    have hk : k ≠ 0 := fun hk ↦ h ⟨hk, rfl⟩
    exact text_moved hk false order
  | true =>
    by_cases hk : k = 0
    · subst hk
      rfl
    · have hparens : needsParens .unaryNegation (e.moved k).order := by
        refine needsParens_unaryNegation ?_
        unfold moved
        split
        · nofun
        · rw [if_pos (by omega)]
          nofun
      simp only [adjusted, if_true, text, wrap, hparens, if_neg (mt eq_of_beq hk),
        text_moved hk true order]
      rw [← String.append_assoc, ← String.append_assoc]
      rfl

/-- A text that is in parentheses, or that needs none where it is to stand, is read back and can
stand there. -/
theorem reads_and_stands (h : e.WellFormed) {outer : Order} {parens : Bool}
    (hparens : parens → e.order ≠ .atomic)
    (hbare : parens = false → needsParens outer e.order = false) :
    let code := if parens then "(" ++ e.text ++ ")" else e.text
    read? code = some e.leanLeft ∧ Stands outer code e.leanLeft := by
  have hread : read? e.text = some e.leanLeft := by
    rw [← operand_loose e]
    exact read?_operand h .loose
  cases parens with
  | false => exact ⟨hread, .inr (by rw [order_leanLeft, hbare rfl])⟩
  | true =>
    refine ⟨?_, .inl ⟨e.text, rfl, hread⟩⟩
    have htext : e.operand .atomic = "(" ++ e.text ++ ")" := by
      rw [operand, wrap, if_pos (needsParens_atomic (hparens rfl))]
    exact htext ▸ read?_operand h .atomic

/-- Where an adjusted expression is written without parentheses, it needs none. -/
theorem needsParens_adjusted (h : ¬(k = 0 ∧ negate = false))
    (hlevel : ¬ order.level ≤ (adjustmentOrder k negate order).level) :
    needsParens order (e.adjusted k negate).order = false := by
  refine needsParens_of_lt (lt_of_le_of_lt ?_ (Nat.lt_of_not_le hlevel))
  cases negate with
  | false => exact (order_moved (fun hk ↦ h ⟨hk, rfl⟩) false order).symm ▸ le_refl _
  | true =>
    change Order.unaryNegation.level ≤ _
    unfold adjustmentOrder
    split
    · decide
    · split
      · decide
      · exact le_refl _

theorem order_adjusted_ne_atomic (h : ¬(k = 0 ∧ negate = false)) :
    (e.adjusted k negate).order ≠ .atomic := by
  cases negate with
  | true => nofun
  | false =>
    have hk : k ≠ 0 := fun hk ↦ h ⟨hk, rfl⟩
    rw [adjusted, if_neg Bool.false_ne_true, order_moved hk false .loose]
    unfold adjustmentOrder
    split
    · nofun
    · rw [if_pos (by omega)]
      nofun

end Expr

end Logo

open Logo

/-- The text of a position that is moved and negated, when what is connected is no literal. -/
def adjustedCode (code : String) (k : Int) (negate : Bool) (order : Order) : String :=
  if k == 0 && !negate then code
  else
    let moved := plusText code k
    let text := if negate then (if k == 0 then "-" ++ moved else "-(" ++ moved ++ ")") else moved
    if order.level ≤ (adjustmentOrder k negate order).level then "(" ++ text ++ ")" else text

/-- The text of an adjusted expression is read back, and can stand where it is asked for. -/
theorem reads_and_stands_adjustedCode {x : Expr} (h : x.WellFormed) (k : Int) (negate : Bool)
    (order : Order) :
    let code := adjustedCode (x.operand (adjustmentOrder k negate order)) k negate order
    read? code = some (x.adjusted k negate).leanLeft ∧
      Stands order code (x.adjusted k negate).leanLeft := by
  intro code
  by_cases hplain : k = 0 ∧ negate = false
  · -- Nothing is adjusted, and the text is what is connected, where `order` is demanded.
    obtain ⟨rfl, rfl⟩ := hplain
    exact Expr.reads_and_stands h ne_atomic_of_needsParens id
  · have hbare : decide (order.level ≤ (adjustmentOrder k negate order).level) = false →
        needsParens order (x.adjusted k negate).order = false := fun hlevel ↦
      Expr.needsParens_adjusted hplain (of_decide_eq_false hlevel)
    have hplain' : (k == 0 && !negate) = false := by simpa using hplain
    have hcode : code = if decide (order.level ≤ (adjustmentOrder k negate order).level) then
        "(" ++ (x.adjusted k negate).text ++ ")" else (x.adjusted k negate).text := by
      rw [Expr.text_adjusted hplain order]
      simp only [code, adjustedCode, hplain', Bool.false_eq_true, if_false, decide_eq_true_eq]
    rw [hcode]
    exact Expr.reads_and_stands (h.adjusted k negate)
      (fun _ ↦ Expr.order_adjusted_ne_atomic hplain) hbare

/-- What a connected expression is adjusted to. -/
theorem Compiler.index_of_value {c : Compiler} {b : Block} {input : String} {delta k : Int}
    {negate : Bool} {order : Order} {p q : Pass} {code : String}
    (hk : k = if c.options.oneBased then delta else delta + 1)
    (hvalue : c.value b input (adjustmentOrder k negate order) p = .ok code q)
    (hcode : code ≠ "") (hliteral : Number.isLiteral code = false) :
    c.index b input delta negate order p = .ok (adjustedCode code k negate order) q := by
  have hcode' : (code == "") = false := beq_eq_false_iff_ne.2 hcode
  subst hk
  rw [Compiler.index, adjustedIndex]
  refine (Recipe.run_operand hvalue _ _).trans ?_
  rw [hcode', if_neg Bool.false_ne_true, hliteral, adjustedCode]
  generalize (if c.options.oneBased then delta else delta + 1) = k
  split <;> rfl

namespace Emitter

/-- A connected tree of arithmetic is the text of what it denotes, with the variables called by
their identifiers. -/
theorem value_of_denotes (options : Options) {p : Pass} (hp : p.names.Consistent) {b t : Block}
    {input : String} (ht : b.target? input = some t) {e : Expr} (h : Denotes (some t) e)
    (outer : Order) :
    ∃ code q, ({ options } : Compiler).value b input outer p = .ok code q ∧ code ≠ "" ∧
      (e.rename q.names.variableName).WellFormed ∧
      code = (e.rename q.names.variableName).operand outer := by
  obtain ⟨code, q, hvalue, hfollows, hempty, htext⟩ := spells_of_denotes options h ht outer p hp
  have hcode : code ≠ "" := fun heq ↦ by
    rw [hempty heq] at ht
    cases ht
  have hwf : (e.rename q.names.variableName).WellFormed := h.wellFormed fun name ↦
    (hfollows.consistent hp).isIdentifier_get .variable name
  exact ⟨code, q, hvalue, hcode, hwf, by rw [← htext _ (.refl _), if_neg (by simpa using hcode)]⟩

/-- A position that is computed by a tree of arithmetic is moved and negated as asked, unless its
text is a literal. What is left is read as the adjusted expression, up to re-association, and can
stand as an operand of the order that was asked for. -/
theorem read?_index_of_denotes (options : Options) (words : List String)
    (calls : List Names.Call) {p : Pass} (hp : p.names = (Names.ofReserved words).after calls)
    {b t : Block} {input : String} (ht : b.target? input = some t) {e : Expr}
    (h : Denotes (some t) e) (delta : Int) (negate : Bool) (order : Order) :
    let c : Compiler := { options }
    let k := if options.oneBased then delta else delta + 1
    (∀ code q, c.value b input (adjustmentOrder k negate order) p = .ok code q →
      Number.isLiteral code = false) →
    ∃ code q e', c.index b input delta negate order p = .ok code q ∧
      read? code = some e' ∧
      Reassociates ((e.rename q.names.variableName).adjusted k negate) e' ∧
      Stands order code e' := by
  intro c k hliteral
  have hconsistent : p.names.Consistent := hp ▸ (Names.consistent_ofReserved words).after calls
  obtain ⟨code, q, hvalue, hcode, hwf, hoperand⟩ :=
    value_of_denotes options hconsistent ht h (adjustmentOrder k negate order)
  have hindex := Compiler.index_of_value rfl hvalue hcode (hliteral code q hvalue)
  obtain ⟨hread, hstands⟩ := reads_and_stands_adjustedCode hwf k negate order
  rw [← hoperand] at hread hstands
  exact ⟨_, q, _, hindex, hread, Expr.reassociates_leanLeft _, hstands⟩

/-- A variable less two, connected as the position of a letter. -/
def computedPosition : Block :=
  let x := (Block.ofKind "variables_get" "c").withField "VAR" (.variable none (some "x"))
  let two := (Block.ofKind "math_number" "d").withField "NUM" (.text "2")
  let difference := (Block.ofKind "math_arithmetic" "b").withField "OP" (.text "MINUS")
  (Block.ofKind "text_charAt" "a").withInput "AT" .value
    (some ((difference.withInput "A" .value (some x)).withInput "B" .value (some two)))

theorem read?_index_computedPosition :
    let c : Compiler := { options := { oneBased := false } }
    ∃ t, computedPosition.target? "AT" = some t ∧
      Denotes (some t) (.operation .minus (.named "x") (.literal "2")) ∧
      (∀ code q, c.value computedPosition "AT" .subtraction {} = .ok code q →
        Number.isLiteral code = false) ∧
      ∃ code q e', c.index computedPosition "AT" (-3) true .multiplication {} = .ok code q ∧
        read? code = some e' ∧
        Reassociates (.negated (.operation .minus (.operation .minus
          (.named (q.names.variableName "x")) (.literal "2")) (.literal "2"))) e' ∧
        Stands .multiplication code e' := by
  intro c
  have hdenotes : Denotes (computedPosition.target? "AT")
      (.operation .minus (.named "x") (.literal "2")) := by
    refine .arithmetic ⟨rfl, rfl, rfl⟩ rfl (.named ⟨rfl, rfl, rfl⟩) (.positive ⟨rfl, rfl, rfl⟩ ?_ ?_)
    · decide +kernel
    · decide
  have hliteral (code : String) (q : Pass)
      (hvalue : c.value computedPosition "AT" .subtraction {} = .ok code q) :
      Number.isLiteral code = false := by
    have hcode : (c.value computedPosition "AT" .subtraction).run' {} = some "(:x - 2)" := by
      decide +kernel
    obtain ⟨q', hrun⟩ := PassM.exists_ok hcode
    rw [hvalue] at hrun
    cases hrun
    decide
  exact ⟨_, rfl, hdenotes, hliteral, read?_index_of_denotes { oneBased := false } Logo.primitives []
    rfl rfl hdenotes (-3) true .multiplication hliteral⟩

end Emitter

end Turtle

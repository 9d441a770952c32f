import Turtle.Proofs.Compile.Following
import Turtle.Proofs.Identifier.Session
import Turtle.Proofs.Logo.Tokens
import Turtle.Proofs.Number.Sign

/-!
# Formulas

Blocks of arithmetic and of comparison, plugged into each other, denote an expression.  The code of
such a tree is the text of the expression, with the variables called by their identifiers, and so it
is read back as the same expression up to re-association.
-/

namespace Turtle

namespace Logo.Expr

/-- Call the variables by other names. -/
def rename (f : String → String) : Expr → Expr
  | literal digits => literal digits
  | named name => named (f name)
  | negated e => negated (e.rename f)
  | operation op a b => operation op (a.rename f) (b.rename f)
  | unary g x => unary g (x.rename f)
  | binary g x y => binary g (x.rename f) (y.rename f)

theorem order_rename (f : String → String) (e : Expr) : (e.rename f).order = e.order := by
  cases e <;> rfl

theorem operand_rename (f : String → String) (outer : Order) (e : Expr) :
    (e.rename f).operand outer = wrap outer e.order (e.rename f).text := by
  rw [operand, order_rename]

/-- A place that takes anything takes it without parentheses. -/
theorem operand_loose (e : Expr) : e.operand .loose = e.text := by
  have h (inner : Order) : needsParens .loose inner = false := by cases inner <;> decide
  rw [operand, wrap, h]
  rfl

/-- What nothing can take apart is never put in parentheses. -/
theorem operand_atomic (outer : Order) {e : Expr} (h : e.order = .atomic) :
    e.operand outer = e.text := by
  rw [operand, wrap, h, needsParens_inner_atomic]
  rfl

/-- Only the empty literal has an empty text. -/
theorem text_ne_empty {e : Expr} (h : e ≠ literal "") : e.text ≠ "" := by
  intro htext
  cases e with
  | literal digits => exact h (congrArg literal htext)
  | named _ | negated _ | operation _ _ _ | unary _ _ | binary _ _ _ =>
    have hlist := congrArg String.toList htext
    simp [text] at hlist

end Logo.Expr

namespace Names

/-- The identifier of a variable. -/
def variableName (n : Names) (nameOrId : String) : String := (n.get .variable nameOrId).1

end Names

namespace Emitter

open Logo (Order Operator Expr)
open Recipe

/-! ## What blocks denote -/

/-- The operator of an operation of arithmetic. -/
def arithmeticOperator? : String → Option Operator
  | "ADD" => some .plus
  | "MINUS" => some .minus
  | "MULTIPLY" => some .times
  | "DIVIDE" => some .divided
  | _ => none

/-- The operator of a comparison. -/
def comparedBy? : String → Option Operator
  | "EQ" => some .equal
  | "NEQ" => some .unequal
  | "LT" => some .less
  | "LTE" => some .atMost
  | "GT" => some .greater
  | "GTE" => some .atLeast
  | _ => none

/-- A function of one number, applied.  The power of ten has ten for its first input, and rounding
up rounds what is greater by a half. -/
def applied? (x : Expr) : String → Option Expr
  | "NEG" => some (.negated x)
  | "POW10" => some (.binary "power" (.literal "10") x)
  | "ROUNDUP" => some (.unary "round" (.operation .plus (.literal "0.5") x))
  | "ABS" => some (.unary "abs" x)
  | "ROOT" => some (.unary "sqrt" x)
  | "LN" => some (.unary "ln" x)
  | "EXP" => some (.unary "exp" x)
  | "ROUND" => some (.unary "round" x)
  | "ROUNDDOWN" => some (.unary "int" x)
  | "SIN" => some (.unary "sin" x)
  | "COS" => some (.unary "cos" x)
  | "TAN" => some (.unary "tan" x)
  | "LOG10" => some (.unary "log10" x)
  | "ASIN" => some (.unary "arcsin" x)
  | "ACOS" => some (.unary "arccos" x)
  | "ATAN" => some (.unary "arctan" x)
  | _ => none

/-- An enabled block of a kind with nothing behind it. -/
structure Plain (b : Block) (kind : String) : Prop where
  kind : b.head.kind = kind
  enabled : b.head.enabled
  last : b.next = none

/-- The expression that a tree of blocks denotes.  Where nothing is connected there is zero.  The
number of a block has to be written as a plain decimal, with or without a sign. -/
inductive Denotes : Option Block → Expr → Prop
  | absent : Denotes none (.literal "0")
  | positive {b : Block} {digits : String} (h : Plain b "math_number")
    (htext : Number.write (Number.read (b.head.field "NUM")) = digits)
    (hdigits : Logo.isNumeral digits.toList) : Denotes (some b) (.literal digits)
  | negative {b : Block} {digits : String} (h : Plain b "math_number")
    (htext : Number.write (Number.read (b.head.field "NUM")) = "-" ++ digits)
    (hdigits : Logo.isNumeral digits.toList) : Denotes (some b) (.negated (.literal digits))
  | named {b : Block} (h : Plain b "variables_get") :
    Denotes (some b) (.named (b.head.field "VAR"))
  | arithmetic {b : Block} {op : Operator} {x y : Expr} (h : Plain b "math_arithmetic")
    (hop : arithmeticOperator? (b.head.field "OP") = some op)
    (hx : Denotes (b.target? "A") x) (hy : Denotes (b.target? "B") y) :
    Denotes (some b) (.operation op x y)
  | power {b : Block} {x y : Expr} (h : Plain b "math_arithmetic")
    (hop : b.head.field "OP" = "POWER")
    (hx : Denotes (b.target? "A") x) (hy : Denotes (b.target? "B") y) :
    Denotes (some b) (.binary "power" x y)
  | comparison {b : Block} {op : Operator} {x y : Expr} (h : Plain b "logic_compare")
    (hop : comparedBy? (b.head.field "OP") = some op)
    (hx : Denotes (b.target? "A") x) (hy : Denotes (b.target? "B") y) :
    Denotes (some b) (.operation op x y)
  | function {b : Block} {kind : String} {x e : Expr}
    (hkind : kind ∈ ["math_single", "math_round", "math_trig"]) (h : Plain b kind)
    (hx : Denotes (b.target? "NUM") x) (he : applied? x (b.head.field "OP") = some e) :
    Denotes (some b) e
  | modulo {b : Block} {x y : Expr} (h : Plain b "math_modulo")
    (hx : Denotes (b.target? "DIVIDEND") x) (hy : Denotes (b.target? "DIVISOR") y) :
    Denotes (some b) (.binary "modulo" x y)

/-! ## What blocks leave -/

variable {options : Options}

/-- The code that is connected to an input is the expression `e` where `outer` is demanded, and if
nothing is connected then `e` is zero.  Every later state knows the variables by the names in it. -/
def Spells (c : Compiler) (b : Block) (input : String) (e : Expr) : Prop :=
  ∀ outer p, p.names.Consistent → ∃ code q, c.value b input outer p = .ok code q ∧
    p.names.Follows q.names ∧ (code = "" → b.target? input = none) ∧
    ∀ m, q.names.Follows m →
      (if code == "" then "0" else code) = (e.rename m.variableName).operand outer

/-- A recipe of a block writes the expression `e`. -/
def Leaves (c : Compiler) (b : Block) (r : Recipe (String × Order)) (e : Expr) : Prop :=
  ∀ p, p.names.Consistent → ∃ code q,
    r.run c.options.indent (c.neighbours b) p = .ok (code, e.order) q ∧
    p.names.Follows q.names ∧ ∀ m, q.names.Follows m → code = (e.rename m.variableName).text

variable {c : Compiler} {b : Block}

theorem spells_absent {input : String} (h : b.target? input = none) :
    Spells c b input (.literal "0") := by
  intro outer p _
  refine ⟨"", p, ?_, .refl _, fun _ ↦ h, fun m _ ↦ ?_⟩
  · rw [Compiler.value, h]
    rfl
  · exact (Expr.operand_atomic (e := .literal "0") outer rfl).symm

theorem spells_of_leaves {t : Block} {input kind : String} {f : View → Recipe (String × Order)}
    {e : Expr} (h : b.target? input = some t) (hplain : Plain t kind)
    (hemitter : c.emitter? kind = some (.value f))
    (hleaves : Leaves c t (f (c.view (.value f) t)) e) (hne : e ≠ .literal "") :
    Spells c b input e := by
  intro outer p hp
  obtain ⟨code, q, hrun, hfollows, htext⟩ := hleaves p hp
  have hcode : code ≠ "" := by
    rw [htext _ (.refl _)]
    refine Expr.text_ne_empty ?_
    cases e with
    | literal _ => exact hne
    | named _ | negated _ | operation _ _ _ | unary _ _ | binary _ _ _ => nofun
  have hwrap : Expr.wrap outer e.order code ≠ "" := by
    unfold Expr.wrap
    split
    · intro heq
      have hlist := congrArg String.toList heq
      simp at hlist
    · exact hcode
  refine ⟨Expr.wrap outer e.order code, q, ?_, hfollows, fun heq ↦ absurd heq hwrap,
    fun m hm ↦ ?_⟩
  · have hblock : c.block t false true p = .ok (.value code e.order) q := by
      rw [c.block_value hplain.enabled hplain.last (hplain.kind ▸ hemitter), PassM.bind_ok hrun]
      rfl
    rw [Compiler.value, h]
    simp only
    rw [PassM.bind_ok hblock, Compiler.plug, bne_iff_ne.2 hcode, Bool.true_and]
    rfl
  · rw [Expr.operand_rename, ← htext m hm, if_neg (by simpa using hwrap)]

/-- An operand of a recipe is what is connected. -/
theorem Spells.run_operand {input : String} {e : Expr} (h : Spells c b input e) (outer : Order)
    {p : Pass} (hp : p.names.Consistent) : ∃ code q,
      (∀ f : String → Recipe (String × Order),
        (operand input outer "0" >>= f).run c.options.indent (c.neighbours b) p =
          (f code).run c.options.indent (c.neighbours b) q) ∧
      p.names.Follows q.names ∧
      ∀ m, q.names.Follows m → code = (e.rename m.variableName).operand outer := by
  obtain ⟨code, q, hvalue, hfollows, -, htext⟩ := h outer p hp
  exact ⟨_, q, fun f ↦ Recipe.run_operand hvalue "0" f, hfollows, htext⟩

theorem leaves_infixOf {x y : Expr} (op : Operator) (hx : Spells c b "A" x)
    (hy : Spells c b "B" y) : Leaves c b (infixOf op.symbol op.order) (.operation op x y) := by
  intro p hp
  obtain ⟨code, q, hrun, hfollows, htext⟩ := hx.run_operand op.order hp
  obtain ⟨code', q', hrun', hfollows', htext'⟩ :=
    hy.run_operand op.order (hfollows.consistent hp)
  refine ⟨code ++ " " ++ op.symbol ++ " " ++ code', q', ?_, hfollows.trans hfollows',
    fun m hm ↦ ?_⟩
  · rw [infixOf, hrun, hrun']
    rfl
  · rw [htext m (hfollows'.trans hm), htext' m hm]
    rfl

theorem leaves_binary {x y : Expr} (f : String) {first second : String}
    (hx : Spells c b first x) (hy : Spells c b second y) :
    Leaves c b (binary f first second) (.binary f x y) := by
  intro p hp
  obtain ⟨code, q, hrun, hfollows, htext⟩ := hx.run_operand .loose hp
  obtain ⟨code', q', hrun', hfollows', htext'⟩ := hy.run_operand .loose (hfollows.consistent hp)
  refine ⟨f ++ " " ++ code ++ " " ++ code', q', ?_, hfollows.trans hfollows', fun m hm ↦ ?_⟩
  · rw [binary, hrun, hrun']
    rfl
  · rw [htext m (hfollows'.trans hm), htext' m hm, Expr.operand_loose, Expr.operand_loose]
    rfl

theorem leaves_variableValue {v : View} :
    Leaves c b (variableValue v) (.named (v.field "VAR")) := by
  intro p hp
  refine ⟨_, _, rfl, p.names.follows_get .variable _, fun m hm ↦ ?_⟩
  rw [Expr.rename, Names.variableName, hm.get_eq]
  rfl

/-- What is no number is not written as a plain decimal. -/
theorem ne_nan_of_isNumeral {x : Binary64} (sign : String) {digits : String}
    (htext : Number.write x = sign ++ digits) (hsign : sign = "" ∨ sign = "-")
    (hdigits : Logo.isNumeral digits.toList) : x ≠ .nan := by
  rintro rfl
  have hlist := congrArg String.toList htext
  obtain ⟨d, s, heq, hd⟩ := (Logo.isNumeral_cases hdigits).1
  rcases hsign with rfl | rfl
  · rw [String.toList_append, heq] at hlist
    obtain rfl := (List.cons.inj hlist).1
    exact absurd hd (by decide)
  · rw [String.toList_append] at hlist
    exact absurd (List.cons.inj hlist).1 (by decide)

/-- A number that is written as a plain decimal is not negative. -/
theorem leaves_positive {v : View} {digits : String}
    (htext : Number.write (Number.read (v.field "NUM")) = digits)
    (hdigits : Logo.isNumeral digits.toList) : Leaves c b (number v) (.literal digits) := by
  have hsign : (Number.read (v.field "NUM")).isNonneg := by
    have hne := ne_nan_of_isNumeral "" (htext.trans digits.empty_append.symm) (.inl rfl) hdigits
    rw [Number.isNonneg_iff hne, htext]
    obtain ⟨d, s, heq, hd⟩ := (Logo.isNumeral_cases hdigits).1
    rw [heq]
    rintro hminus
    obtain rfl := Option.some.inj hminus
    exact absurd hd (by decide)
  intro p _
  refine ⟨digits, p, ?_, .refl _, fun _ _ ↦ rfl⟩
  rw [number, htext, hsign]
  rfl

/-- A number that is written as a plain decimal with a sign is negative. -/
theorem leaves_negative {v : View} {digits : String}
    (htext : Number.write (Number.read (v.field "NUM")) = "-" ++ digits)
    (hdigits : Logo.isNumeral digits.toList) :
    Leaves c b (number v) (.negated (.literal digits)) := by
  have hsign : (Number.read (v.field "NUM")).isNonneg = false := by
    have hne := ne_nan_of_isNumeral "-" htext (.inr rfl) hdigits
    rw [Bool.eq_false_iff, ne_eq, Number.isNonneg_iff hne, htext]
    simp
  intro p _
  refine ⟨"-" ++ digits, p, ?_, .refl _, fun m _ ↦ ?_⟩
  · rw [number, htext, hsign]
    rfl
  · exact congrArg _ (Expr.operand_atomic (e := .literal digits) .unaryNegation rfl).symm

/-- No operand of a minus sign begins with one. -/
theorem minus_operand {e : Expr} (h : e.WellFormed) :
    minus (e.operand .unaryNegation) = (Expr.negated e).text := by
  obtain ⟨d, s, heq, -, hminus⟩ := Logo.head_operand_unaryNegation h
  have hhead : ((e.operand .unaryNegation).toList.head? == some '-') = false := by
    rw [heq]
    simpa using hminus
  rw [minus, hhead]
  rfl

theorem leaves_minus {v : View} {x : Expr} (hop : v.field "OP" = "NEG") (hx : Spells c b "NUM" x)
    (hwf : ∀ m : Names, m.Consistent → (x.rename m.variableName).WellFormed) :
    Leaves c b (function v) (.negated x) := by
  intro p hp
  obtain ⟨code, q, hrun, hfollows, htext⟩ := hx.run_operand .unaryNegation hp
  refine ⟨minus code, q, ?_, hfollows, fun m hm ↦ ?_⟩
  · rw [function, hop]
    exact hrun _
  · rw [htext m hm, minus_operand (hwf m (hm.consistent (hfollows.consistent hp)))]
    rfl

theorem leaves_function {v : View} {x e : Expr} {operator primitive : String}
    (hop : v.field "OP" = operator) (hne : (operator == "NEG") = false)
    (hprimitive : functionPrimitive? operator = some primitive) (hx : Spells c b "NUM" x)
    (horder : e.order = .procedure)
    (he : ∀ f, (e.rename f).text = primitive ++ " " ++
      (x.rename f).operand (if operator == "ROUNDUP" then .addition else .loose)) :
    Leaves c b (function v) e := by
  intro p hp
  obtain ⟨code, q, hrun, hfollows, htext⟩ :=
    hx.run_operand (if operator == "ROUNDUP" then .addition else .loose) hp
  refine ⟨primitive ++ " " ++ code, q, ?_, hfollows, fun m hm ↦ ?_⟩
  · rw [function, hop, hne, hprimitive, horder]
    exact hrun _
  · rw [he, htext m hm]

/-- A function of one number writes what it denotes. -/
theorem leaves_applied {v : View} {x e : Expr} (hx : Spells c b "NUM" x)
    (hwf : ∀ m : Names, m.Consistent → (x.rename m.variableName).WellFormed)
    (he : applied? x (v.field "OP") = some e) : Leaves c b (function v) e := by
  unfold applied? at he
  split at he
  case h_1 hop =>
    obtain rfl := Option.some.inj he
    exact leaves_minus hop hx hwf
  case h_2 hop =>
    obtain rfl := Option.some.inj he
    refine leaves_function hop rfl rfl hx rfl fun f ↦ ?_
    exact congrArg ("power 10" ++ " " ++ ·) (Expr.operand_loose (x.rename f)).symm
  case h_3 hop =>
    obtain rfl := Option.some.inj he
    refine leaves_function hop rfl rfl hx rfl fun f ↦ ?_
    have hhalf : (Expr.literal "0.5").operand .addition = "0.5" := Expr.operand_atomic _ rfl
    change "round" ++ " " ++ ((Expr.literal "0.5").operand .addition ++ " " ++ "+" ++ " " ++
      (x.rename f).operand .addition) = "round 0.5 +" ++ " " ++ (x.rename f).operand .addition
    rw [hhalf]
    simp only [← String.append_assoc]
    rfl
  case h_17 => cases he
  all_goals
    rename_i hop
    obtain rfl := Option.some.inj he
    exact leaves_function hop rfl rfl hx rfl fun f ↦ congrArg _ (Expr.operand_loose _).symm

/-! ## Trees -/

theorem wellFormed_applied {x e : Expr} {operator : String} (hx : x.WellFormed)
    (he : applied? x operator = some e) : e.WellFormed := by
  unfold applied? at he
  split at he
  case h_1 =>
    obtain rfl := Option.some.inj he
    exact hx
  case h_2 =>
    obtain rfl := Option.some.inj he
    have hten : Logo.isNumeral "10".toList := by decide
    exact ⟨by decide, hten, hx⟩
  case h_3 =>
    obtain rfl := Option.some.inj he
    have hhalf : Logo.isNumeral "0.5".toList := by decide
    exact ⟨by decide, hhalf, hx⟩
  case h_17 => cases he
  all_goals
    obtain rfl := Option.some.inj he
    exact ⟨by decide, hx⟩

theorem rename_applied {x e : Expr} {operator : String} (f : String → String)
    (he : applied? x operator = some e) : applied? (x.rename f) operator = some (e.rename f) := by
  unfold applied? at he ⊢
  split at he <;> cases he <;> rfl

/-- What blocks denote is well-formed once the variables are called by identifiers. -/
theorem Denotes.wellFormed {t : Option Block} {e : Expr} (h : Denotes t e) {f : String → String}
    (hf : ∀ name, isIdentifier (f name)) : (e.rename f).WellFormed := by
  induction h with
  | absent => exact (by decide : Logo.isNumeral "0".toList)
  | positive _ _ hdigits => exact hdigits
  | negative _ _ hdigits => exact hdigits
  | named _ => exact hf _
  | arithmetic _ _ _ _ ihx ihy => exact ⟨ihx, ihy⟩
  | power _ _ _ _ ihx ihy => exact ⟨by decide, ihx, ihy⟩
  | comparison _ _ _ _ ihx ihy => exact ⟨ihx, ihy⟩
  | function _ _ _ he ihx => exact wellFormed_applied ihx (rename_applied f he)
  | modulo _ _ _ ihx ihy => exact ⟨by decide, ihx, ihy⟩

theorem applied?_ne_literal {x e : Expr} {operator : String} (he : applied? x operator = some e) :
    e ≠ .literal "" := by
  unfold applied? at he
  split at he <;> cases he <;> nofun

theorem arithmetic_eq {v : View} {op : Operator}
    (hop : arithmeticOperator? (v.field "OP") = some op) :
    arithmetic v = infixOf op.symbol op.order := by
  unfold arithmeticOperator? at hop
  split at hop <;> cases hop
  all_goals
    rename_i heq
    rw [arithmetic, heq]
    rfl

theorem comparison_eq {v : View} {op : Operator} (hop : comparedBy? (v.field "OP") = some op) :
    comparison v = infixOf op.symbol op.order := by
  unfold comparedBy? at hop
  split at hop <;> cases hop
  all_goals
    rename_i heq
    rw [comparison, heq]
    rfl

theorem leaves_arithmetic {v : View} {op : Operator} {x y : Expr}
    (hop : arithmeticOperator? (v.field "OP") = some op) (hx : Spells c b "A" x)
    (hy : Spells c b "B" y) : Leaves c b (arithmetic v) (.operation op x y) := by
  rw [arithmetic_eq hop]
  exact leaves_infixOf op hx hy

theorem leaves_power {v : View} {x y : Expr} (hop : v.field "OP" = "POWER")
    (hx : Spells c b "A" x) (hy : Spells c b "B" y) :
    Leaves c b (arithmetic v) (.binary "power" x y) := by
  rw [arithmetic, hop]
  exact leaves_binary "power" hx hy

theorem leaves_comparison {v : View} {op : Operator} {x y : Expr}
    (hop : comparedBy? (v.field "OP") = some op) (hx : Spells c b "A" x)
    (hy : Spells c b "B" y) : Leaves c b (comparison v) (.operation op x y) := by
  rw [comparison_eq hop]
  exact leaves_infixOf op hx hy

/-- Trees of blocks spell what they denote. -/
theorem spells_of_denotes (options : Options) {t : Option Block} {e : Expr} (h : Denotes t e)
    {b : Block} {input : String} (ht : b.target? input = t) : Spells { options } b input e := by
  have hwf {t : Option Block} {e : Expr} (h : Denotes t e) (m : Names) (hm : m.Consistent) :
      (e.rename m.variableName).WellFormed := h.wellFormed fun name ↦ hm.isIdentifier_get _ name
  induction h generalizing b input with
  | absent => exact spells_absent ht
  | @positive _ digits hplain htext hdigits =>
    refine spells_of_leaves ht hplain rfl (leaves_positive htext hdigits) fun heq ↦ ?_
    obtain rfl := Expr.literal.inj heq
    exact absurd hdigits (by decide)
  | negative hplain htext hdigits =>
    exact spells_of_leaves ht hplain rfl (leaves_negative htext hdigits) nofun
  | named hplain => exact spells_of_leaves ht hplain rfl leaves_variableValue nofun
  | arithmetic hplain hop _ _ ihx ihy =>
    exact spells_of_leaves ht hplain rfl (leaves_arithmetic hop (ihx rfl) (ihy rfl)) nofun
  | power hplain hop _ _ ihx ihy =>
    exact spells_of_leaves ht hplain rfl (leaves_power hop (ihx rfl) (ihy rfl)) nofun
  | comparison hplain hop _ _ ihx ihy =>
    exact spells_of_leaves ht hplain rfl (leaves_comparison hop (ihx rfl) (ihy rfl)) nofun
  | function hkind hplain hx he ihx =>
    have hemitter : ∀ kind ∈ ["math_single", "math_round", "math_trig"],
        standard? kind = some (.value function) := by
      simp only [List.forall_mem_cons]
      exact ⟨rfl, rfl, rfl, nofun⟩
    exact spells_of_leaves ht hplain (hemitter _ hkind) (leaves_applied (ihx rfl) (hwf hx) he)
      (applied?_ne_literal he)
  | modulo hplain _ _ ihx ihy =>
    exact spells_of_leaves ht hplain rfl (leaves_binary "modulo" (ihx rfl) (ihy rfl)) nofun

/-- The code of a tree of arithmetic and comparison, in any place and in any state that a session
with identifiers can reach, is read as the expression that the tree denotes, up to
re-association. -/
theorem read?_value_of_denotes (options : Options) (words : List String) (calls : List Names.Call)
    {p : Pass} (hp : p.names = (Names.ofReserved words).after calls) {b t : Block} {input : String}
    (ht : b.target? input = some t) {e : Expr} (h : Denotes (some t) e) (outer : Order) :
    ∃ code q e', ({ options } : Compiler).value b input outer p = .ok code q ∧
      Logo.read? code = some e' ∧ Logo.Reassociates (e.rename q.names.variableName) e' := by
  have hconsistent : p.names.Consistent := hp ▸ (Names.consistent_ofReserved words).after calls
  obtain ⟨code, q, hvalue, hfollows, hempty, htext⟩ :=
    spells_of_denotes options h ht outer p hconsistent
  have hq := hfollows.consistent hconsistent
  have hwf : (e.rename q.names.variableName).WellFormed :=
    h.wellFormed fun name ↦ hq.isIdentifier_get .variable name
  have hcode : code = (e.rename q.names.variableName).operand outer := by
    rw [← htext _ (.refl _), if_neg]
    intro heq
    rw [hempty (eq_of_beq heq)] at ht
    cases ht
  refine ⟨code, q, _, hvalue, ?_, Expr.reassociates_leanLeft _⟩
  rw [hcode]
  exact Logo.read?_operand hwf outer

/-- The difference of a variable and of a negative number less another one that is missing, plugged
into an assignment. -/
def nestedDifference : Block :=
  let number := (Block.ofKind "math_number" "c").withField "NUM" (.text "-2.5")
  let inner := ((Block.ofKind "math_arithmetic" "b").withField "OP" (.text "MINUS")).withInput "A"
    .value (some number)
  let x := (Block.ofKind "variables_get" "d").withField "VAR" (.variable none (some "x"))
  let outer := ((Block.ofKind "math_arithmetic" "a").withField "OP" (.text "MINUS")).withInput "A"
    .value (some x)
  (Block.ofKind "variables_set" "s").withInput "VALUE" .value
    (some (outer.withInput "B" .value (some inner)))

theorem read?_value_nestedDifference : ∃ t, nestedDifference.target? "VALUE" = some t ∧
    Denotes (some t) (.operation .minus (.named "x")
      (.operation .minus (.negated (.literal "2.5")) (.literal "0"))) ∧
    ∃ code q e', ({} : Compiler).value nestedDifference "VALUE" .atomic {} = .ok code q ∧
      Logo.read? code = some e' ∧
      Logo.Reassociates (.operation .minus (.named (q.names.variableName "x"))
        (.operation .minus (.negated (.literal "2.5")) (.literal "0"))) e' := by
  have hdenotes : Denotes (nestedDifference.target? "VALUE") (.operation .minus (.named "x")
      (.operation .minus (.negated (.literal "2.5")) (.literal "0"))) := by
    refine .arithmetic ⟨rfl, rfl, rfl⟩ rfl (.named ⟨rfl, rfl, rfl⟩) ?_
    refine .arithmetic ⟨rfl, rfl, rfl⟩ rfl (.negative ⟨rfl, rfl, rfl⟩ ?_ ?_) .absent
    · decide +kernel
    · decide
  exact ⟨_, rfl, hdenotes,
    read?_value_of_denotes {} Logo.primitives [] rfl rfl hdenotes .atomic⟩

end Emitter

end Turtle

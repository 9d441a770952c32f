import Turtle.Proofs.Compile.Following
import Turtle.Proofs.Emitter.Slot
import Turtle.Proofs.Emitter.Standard

/-!
# What emitters refuse

An emitter ends in an error only for a choice that its kind of block does not offer, and the error
tells the block and the choice, or for more elements than there can be room for.  All other emitters
take every block, whatever is missing.  An input either holds statements or a value, as the kind of
block has it, and is asked for that only.
-/

namespace Turtle

open Logo (Order)

/-! ## Refusals -/

namespace Emitter

/-- The functions of one number. -/
def functionChoices : List String :=
  ["NEG", "ABS", "ROOT", "LN", "EXP", "POW10", "ROUND", "ROUNDUP", "ROUNDDOWN", "SIN", "COS", "TAN",
    "LOG10", "ASIN", "ACOS", "ATAN"]

/-- The comparisons. -/
def comparisonChoices : List String := ["EQ", "NEQ", "LT", "LTE", "GT", "GTE"]

/-- The choices that a kind of block offers in a field, where it refuses others. -/
def choiceTable : List ((String × String) × List String) := [
  (("math_arithmetic", "OP"), ["ADD", "MINUS", "MULTIPLY", "DIVIDE", "POWER"]),
  (("math_single", "OP"), functionChoices),
  (("math_round", "OP"), functionChoices),
  (("math_trig", "OP"), functionChoices),
  (("math_constant", "CONSTANT"), ["PI", "E", "GOLDEN_RATIO", "SQRT2", "SQRT1_2"]),
  (("math_number_property", "PROPERTY"),
    ["EVEN", "ODD", "PRIME", "WHOLE", "POSITIVE", "NEGATIVE", "DIVISIBLE_BY"]),
  (("logic_compare", "OP"), comparisonChoices),
  (("text_charAt", "WHERE"), ["", "FIRST", "LAST", "FROM_START", "FROM_END", "RANDOM"]),
  (("text_changeCase", "CASE"), ["UPPERCASE", "LOWERCASE", "TITLECASE"])]

/-- The modes of access to a list, with the locations, that Logo has an expression for. -/
def readings : List (String × String) :=
  [("GET", "FIRST"), ("GET", "LAST"), ("GET", "FROM_START"), ("GET", "RANDOM")]

/-- The kinds of blocks that refuse something. -/
def refusingKinds : List String :=
  choiceTable.map (·.1.1) ++ ["lists_getIndex", "math_number_property", "colour_picker"]

/-- The inputs that hold statements, behind their kinds of blocks. -/
def statementInputs : List (String × String) := [
  ("controls_ifelse", "DO0"), ("controls_ifelse", "ELSE"), ("controls_repeat_ext", "DO"),
  ("controls_repeat", "DO"), ("controls_whileUntil", "DO"), ("controls_for", "DO"),
  ("controls_forEach", "DO"), ("procedures_defreturn", "STACK"),
  ("procedures_defnoreturn", "STACK")]

/-- What an input of a kind of block holds. -/
def inputShape (kind input : String) : Shape :=
  if (kind, input) ∈ statementInputs then .statement else .value

theorem inputShape_eq_statement_iff {kind input : String} :
    inputShape kind input = .statement ↔ (kind, input) ∈ statementInputs := by
  simp [inputShape]

end Emitter

namespace Head

/-- The text of a field, or a default for one that is empty. -/
def fieldOr (h : Head) (name default : String) : String :=
  if h.field name == "" then default else h.field name

/-- The errors for what a block by itself asks for and cannot have. -/
inductive Refuses (h : Head) : CompileError → Prop
  /-- A field holds a choice that is not offered. -/
  | option {field : String} {choices : List String}
    (hmem : ((h.kind, field), choices) ∈ Emitter.choiceTable) (hfield : h.field field ∉ choices) :
    Refuses h (.unsupportedOption h.kind field (h.field field))
  /-- A list is to be accessed in a way that Logo has no expression for. -/
  | access (hkind : h.kind = "lists_getIndex")
    (hreading : (h.fieldOr "MODE" "GET", h.fieldOr "WHERE" "FROM_START") ∉ Emitter.readings) :
    Refuses h
      (.unhandledAccess h.kind (h.fieldOr "MODE" "GET") (h.fieldOr "WHERE" "FROM_START"))
  /-- A number is to be tested for being prime. -/
  | primality (hkind : h.kind = "math_number_property") (hfield : h.field "PROPERTY" = "PRIME") :
    Refuses h .primality
  /-- The colour is not of the form `#rrggbb`. -/
  | colour (hkind : h.kind = "colour_picker")
    (hfield : Emitter.colour? (h.field "COLOUR").toList = none) :
    Refuses h (.invalidColour (h.field "COLOUR"))
  /-- More elements are to be put together than there can be room for. -/
  | capacity (hkind : (gatherer? h.kind).isSome) {count : Nat}
    (hcount : h.mutation.itemCount = some count) (hlimit : Emitter.textLimit < count) :
    Refuses h .capacityOverflow

/-- A block of another kind asks for nothing that it cannot have but room. -/
theorem Refuses.eq_capacityOverflow {h : Head} {e : CompileError} (he : h.Refuses e)
    (hkind : h.kind ∉ Emitter.refusingKinds) : e = .capacityOverflow := by
  cases he with
  | option hmem hfield => exact absurd (List.mem_append_left _ (List.mem_map_of_mem hmem)) hkind
  | access heq hreading => exact absurd (List.mem_append_right _ (by simp [heq])) hkind
  | primality heq hfield => exact absurd (List.mem_append_right _ (by simp [heq])) hkind
  | colour heq hfield => exact absurd (List.mem_append_right _ (by simp [heq])) hkind
  | capacity heq hcount hlimit => rfl

end Head

/-! ## Recipes -/

/-- A request that takes the inputs for what they hold. -/
def Request.Fits (S : String → Shape) : Request → Prop
  | value input _ => S input = .value
  | body input => S input = .statement
  | «variable» _ | procedure _ | helper _ _ => True

namespace Recipe

variable {α β : Type} {S : String → Shape} {E : CompileError → Prop}

/-- The errors of the recipe are among `E`, and it takes the inputs for what they hold. -/
def Blames (S : String → Shape) (E : CompileError → Prop) : Recipe α → Prop
  | done _ => True
  | fail e => E e
  | ask q next => q.Fits S ∧ ∀ answer, (next answer).Blames S E
  | hoist _ _ next => next.Blames S E

theorem blames_pure (a : α) : (pure a : Recipe α).Blames S E := trivial

theorem Blames.bind {r : Recipe α} (h : r.Blames S E) {f : α → Recipe β}
    (hf : ∀ a, (f a).Blames S E) : (r >>= f).Blames S E := by
  induction r with
  | done a => exact hf a
  | fail e => exact h
  | ask q next ih =>
    constructor
    · exact h.1
    · intro answer
      exact ih answer (h.2 answer)
  | hoist name code next ih => exact ih h

theorem Blames.mono {r : Recipe α} (h : r.Blames S E) {E' : CompileError → Prop}
    (himp : ∀ e, E e → E' e) : r.Blames S E' := by
  induction r with
  | done a => trivial
  | fail e => exact himp e h
  | ask q next ih =>
    constructor
    · exact h.1
    · intro answer
      exact ih answer (h.2 answer)
  | hoist name code next ih => exact ih h

theorem blames_answer {q : Request} (h : q.Fits S) : (answer q).Blames S E := by
  constructor
  · exact h
  · intro s
    trivial

theorem blames_value {input : String} {outer : Order} (h : S input = .value) :
    (answer (.value input outer)).Blames S E := blames_answer h

theorem blames_operand {input : String} {outer : Order} {default : String}
    (h : S input = .value) : (operand input outer default).Blames S E :=
  (blames_value h).bind fun _ ↦ blames_pure _

theorem blames_body {input : String} (h : S input = .statement) : (body input).Blames S E :=
  blames_answer h

theorem blames_variable {nameOrId : String} : (variableName nameOrId).Blames S E :=
  blames_answer trivial

theorem blames_procedure {name : String} : (procedureName name).Blames S E := blames_answer trivial

theorem blames_helper {key : String} {lines : List String} : (helper key lines).Blames S E :=
  blames_answer trivial

theorem blames_mapM {γ : Type} {g : γ → Recipe α} (hg : ∀ x, (g x).Blames S E) (xs : List γ) :
    (xs.mapM g).Blames S E := by
  induction xs with
  | nil => trivial
  | cons x xs ih =>
    rw [List.mapM_cons]
    apply (hg x).bind
    intro a
    apply ih.bind
    intro as
    trivial

end Recipe

/-! ## Emitters -/

namespace Emitter

open Recipe

variable {v : View} {S : String → Shape} {E : CompileError → Prop}

section Bodies

/-! ### Emitters with statements -/

theorem blames_loopBody (hbody : S "DO" = .statement) : (loopBody v).Blames S E :=
  (blames_body hbody).bind fun _ ↦ blames_pure _

theorem blames_branch (hcondition : S "IF0" = .value) (hyes : S "DO0" = .statement)
    (hno : S "ELSE" = .statement) : (branch v).Blames S E := by
  apply (blames_operand hcondition).bind
  intro condition
  exact (blames_body hyes).bind fun _ ↦ (blames_body hno).bind fun _ ↦ blames_pure _

theorem blames_repetition (htimes : S "TIMES" = .value) (hbody : S "DO" = .statement) :
    (repetition v).Blames S E := by
  unfold repetition
  split
  · exact (blames_loopBody hbody).bind fun _ ↦ blames_pure _
  · apply (blames_operand htimes).bind
    intro times
    exact (blames_loopBody hbody).bind fun _ ↦ blames_pure _

theorem blames_conditionLoop (hcondition : S "BOOL" = .value) (hbody : S "DO" = .statement) :
    (conditionLoop v).Blames S E := by
  apply (blames_operand hcondition).bind
  intro condition
  exact (blames_loopBody hbody).bind fun _ ↦ blames_pure _

theorem blames_countingLoop (hfirst : S "FROM" = .value) (hlast : S "TO" = .value)
    (hstep : S "BY" = .value) (hbody : S "DO" = .statement) : (countingLoop v).Blames S E := by
  apply blames_variable.bind
  intro name
  apply (blames_operand hfirst).bind
  intro first
  apply (blames_operand hlast).bind
  intro last
  apply (blames_operand hstep).bind
  intro step
  exact (blames_loopBody hbody).bind fun _ ↦ blames_pure _

theorem blames_elementLoop (hlist : S "LIST" = .value) (hbody : S "DO" = .statement) :
    (elementLoop v).Blames S E := by
  apply blames_variable.bind
  intro name
  apply (blames_operand hlist).bind
  intro list
  exact (blames_loopBody hbody).bind fun _ ↦ blames_pure _

theorem blames_definitionOf (hstatements : S "STACK" = .statement) (hresult : S "RETURN" = .value) :
    (definitionOf v).Blames S E := by
  apply blames_procedure.bind
  intro name
  apply (blames_body hstatements).bind
  intro statements
  apply (blames_value hresult).bind
  intro result
  simp only
  apply (blames_mapM (fun _ ↦ blames_variable.bind fun _ ↦ blames_pure _) _).bind
  intro params
  trivial

end Bodies

section Values

/-! ### Emitters without statements -/

variable (hS : ∀ input, S input = .value)
include hS

theorem blames_infixOf (operator : String) (order : Order) :
    (infixOf operator order).Blames S E :=
  (blames_operand (hS _)).bind fun _ ↦ (blames_operand (hS _)).bind fun _ ↦ blames_pure _

theorem blames_binary (primitive first second : String) :
    (binary primitive first second).Blames S E :=
  (blames_operand (hS _)).bind fun _ ↦ (blames_operand (hS _)).bind fun _ ↦ blames_pure _

theorem blames_randomInteger : (randomInteger v).Blames S E :=
  (blames_operand (hS _)).bind fun _ ↦ (blames_operand (hS _)).bind fun _ ↦ blames_pure _

theorem blames_angle : (angle v).Blames S E :=
  (blames_operand (hS _)).bind fun _ ↦ (blames_operand (hS _)).bind fun _ ↦ blames_pure _

theorem blames_connective : (connective v).Blames S E :=
  (blames_operand (hS _)).bind fun _ ↦ (blames_operand (hS _)).bind fun _ ↦ blames_pure _

theorem blames_negation : (negation v).Blames S E :=
  (blames_operand (hS _)).bind fun _ ↦ blames_pure _

theorem blames_choice : (choice v).Blames S E := by
  apply (blames_operand (hS _)).bind
  intro condition
  exact (blames_operand (hS _)).bind fun _ ↦ (blames_operand (hS _)).bind fun _ ↦ blames_pure _

theorem blames_mixedColour : (mixedColour v).Blames S E := by
  apply (blames_operand (hS _)).bind
  intro red
  exact (blames_operand (hS _)).bind fun _ ↦ (blames_operand (hS _)).bind fun _ ↦ blames_pure _

theorem blames_assignment : (assignment v).Blames S E :=
  (blames_operand (hS _)).bind fun _ ↦ blames_variable.bind fun _ ↦ blames_pure _

theorem blames_increment : (increment v).Blames S E :=
  (blames_operand (hS _)).bind fun _ ↦ blames_variable.bind fun _ ↦ blames_pure _

theorem blames_append : (append v).Blames S E :=
  blames_variable.bind fun _ ↦ (blames_operand (hS _)).bind fun _ ↦ blames_pure _

theorem blames_commandOn (field input : String) : (commandOn field input v).Blames S E :=
  (blames_operand (hS _)).bind fun _ ↦ blames_pure _

theorem blames_colourCommand : (colourCommand v).Blames S E :=
  (blames_operand (hS _)).bind fun _ ↦ blames_pure _

theorem blames_unary (primitive input default : String) :
    (unary primitive input default v).Blames S E :=
  (blames_operand (hS _)).bind fun _ ↦ blames_pure _

theorem blames_repeated : (repeated v).Blames S E := by
  apply blames_helper.bind
  intro name
  exact (blames_operand (hS _)).bind fun _ ↦ (blames_operand (hS _)).bind fun _ ↦ blames_pure _

theorem blames_position : (position v).Blames S E := by
  apply (blames_operand (hS _)).bind
  intro element
  exact (blames_operand (hS _)).bind fun _ ↦ blames_helper.bind fun _ ↦ blames_pure _

theorem blames_sorted : (sorted v).Blames S E :=
  (blames_operand (hS _)).bind fun _ ↦ blames_helper.bind fun _ ↦ blames_pure _

theorem blames_print : (print v).Blames S E := (blames_operand (hS _)).bind fun _ ↦ blames_pure _

theorem blames_prompt : (prompt v).Blames S E := by
  unfold prompt
  split
  · exact blames_pure _
  · exact (blames_operand (hS _)).bind fun _ ↦ blames_pure _

theorem blames_adjustedIndex (input : String) (delta : Int) (negate : Bool) (order : Order) :
    (adjustedIndex v input delta negate order).Blames S E := by
  unfold adjustedIndex
  generalize (if v.options.oneBased then delta else delta + 1) = d
  apply (blames_operand (hS _)).bind
  intro code
  split
  · exact blames_pure _
  · split
    · exact blames_pure _
    · exact blames_pure _

theorem blames_callText : (callText v).Blames S E := by
  apply blames_procedure.bind
  intro name
  refine (blames_mapM (fun _ ↦ ?_) _).bind fun _ ↦ blames_pure _
  exact (blames_operand (hS _)).bind fun _ ↦ blames_pure _

theorem blames_conditionalReturn : (conditionalReturn v).Blames S E := by
  apply (blames_operand (hS _)).bind
  intro condition
  simp only
  split
  · apply ((blames_operand (hS _)).bind fun _ ↦ blames_pure _).bind
    exact fun _ ↦ blames_pure _
  · exact blames_pure _

end Values

theorem blames_variableValue : (variableValue v).Blames S E :=
  blames_variable.bind fun _ ↦ blames_pure _

/-! ### Emitters that refuse choices -/

/-- A choice is refused that is not in the table. -/
theorem blames_unsupported {α : Type} {kind field : String} (choices : List String)
    (hmem : ((kind, field), choices) ∈ choiceTable) (hkind : v.head.kind = kind)
    (hfield : v.field field ∉ choices) :
    (v.unsupported field : Recipe α).Blames S v.head.Refuses := by
  subst hkind
  exact Head.Refuses.option hmem hfield

theorem functionPrimitive?_of_mem : ∀ operator ∈ functionChoices,
    operator = "NEG" ∨ (functionPrimitive? operator).isSome := by decide

theorem comparisonOperator?_of_mem : ∀ name ∈ comparisonChoices,
    (comparisonOperator? name).isSome := by decide

theorem blames_constant (hkind : v.head.kind = "math_constant") :
    (constant v).Blames S v.head.Refuses := by
  unfold constant
  split
  · exact blames_pure _
  · exact blames_pure _
  · exact blames_pure _
  · exact blames_pure _
  · exact blames_pure _
  · apply blames_unsupported ["PI", "E", "GOLDEN_RATIO", "SQRT2", "SQRT1_2"] (by decide) hkind
    simp_all

theorem blames_colour (hkind : v.head.kind = "colour_picker") :
    (colour v).Blames S v.head.Refuses := by
  unfold colour
  split
  case h_1 => exact blames_pure _
  case h_2 hnone => exact Head.Refuses.colour hkind hnone

section Refuses

variable (hS : ∀ input, S input = .value)
include hS

theorem blames_gather (hkind : (gatherer? v.head.kind).isSome) (primitive empty : String) :
    (gather primitive empty v).Blames S v.head.Refuses := by
  unfold gather
  split
  · exact blames_pure _
  · exact (blames_operand (hS _)).bind fun _ ↦ (blames_operand (hS _)).bind fun _ ↦ blames_pure _
  · split
    case isTrue hlt =>
      obtain ⟨count, hcount, hlt⟩ := capacity_lt_itemCount_iff.1 hlt
      exact Head.Refuses.capacity hkind hcount (Nat.lt_of_le_of_lt (Nat.le_max_left ..) hlt)
    case isFalse =>
      exact (blames_mapM (fun _ ↦ blames_operand (hS _)) _).bind fun _ ↦ blames_pure _

theorem blames_arithmetic (hkind : v.head.kind = "math_arithmetic") :
    (arithmetic v).Blames S v.head.Refuses := by
  unfold arithmetic
  split
  · exact blames_infixOf hS _ _
  · exact blames_infixOf hS _ _
  · exact blames_infixOf hS _ _
  · exact blames_infixOf hS _ _
  · exact blames_binary hS _ _ _
  · apply blames_unsupported ["ADD", "MINUS", "MULTIPLY", "DIVIDE", "POWER"] (by decide) hkind
    simp_all

theorem blames_function {kind : String} (hmem : ((kind, "OP"), functionChoices) ∈ choiceTable)
    (hkind : v.head.kind = kind) : (function v).Blames S v.head.Refuses := by
  simp only [function]
  split
  case isTrue => exact (blames_operand (hS _)).bind fun _ ↦ blames_pure _
  case isFalse hneg =>
    split
    case h_1 => exact (blames_operand (hS _)).bind fun _ ↦ blames_pure _
    case h_2 hnone =>
      apply blames_unsupported functionChoices hmem hkind
      intro hfield
      rcases functionPrimitive?_of_mem _ hfield with heq | hsome
      · exact hneg (beq_iff_eq.2 heq)
      · rw [hnone] at hsome
        cases hsome

theorem blames_property (hkind : v.head.kind = "math_number_property") :
    (property v).Blames S v.head.Refuses := by
  simp only [property]
  split
  case isTrue hprime => exact Head.Refuses.primality hkind (beq_iff_eq.1 hprime)
  case isFalse hprime =>
    apply (blames_operand (hS _)).bind
    intro x
    split
    · exact blames_pure _
    · exact blames_pure _
    · exact blames_pure _
    · exact blames_pure _
    · exact blames_pure _
    · exact (blames_operand (hS _)).bind fun _ ↦ blames_pure _
    · apply blames_unsupported
        ["EVEN", "ODD", "PRIME", "WHOLE", "POSITIVE", "NEGATIVE", "DIVISIBLE_BY"] (by decide) hkind
      simp_all

theorem blames_comparison (hkind : v.head.kind = "logic_compare") :
    (comparison v).Blames S v.head.Refuses := by
  unfold comparison
  split
  case h_1 =>
    apply (blames_operand (hS _)).bind
    intro _
    apply (blames_operand (hS _)).bind
    intro _
    exact blames_pure _
  case h_2 hnone =>
    apply blames_unsupported comparisonChoices (by decide) hkind
    intro hfield
    have hsome := comparisonOperator?_of_mem _ hfield
    rw [hnone] at hsome
    cases hsome

theorem blames_listElement (hkind : v.head.kind = "lists_getIndex") :
    (listElement v).Blames S v.head.Refuses := by
  apply (blames_operand (hS _)).bind
  intro list
  split
  · exact blames_pure _
  · exact blames_pure _
  · exact (blames_adjustedIndex hS _ _ _ _).bind fun _ ↦ blames_pure _
  · exact blames_pure _
  · refine Head.Refuses.access hkind ?_
    change (mode v, location v) ∉ readings
    simp_all [readings]

theorem blames_letter (hkind : v.head.kind = "text_charAt") :
    (letter v).Blames S v.head.Refuses := by
  apply (blames_operand (hS _)).bind
  intro text
  split
  · exact blames_pure _
  · exact blames_pure _
  · exact (blames_adjustedIndex hS _ _ _ _).bind fun _ ↦ blames_pure _
  · apply (blames_adjustedIndex hS _ _ _ _).bind
    intro position
    exact blames_helper.bind fun _ ↦ blames_pure _
  · exact blames_pure _
  · apply blames_unsupported ["", "FIRST", "LAST", "FROM_START", "FROM_END", "RANDOM"] (by decide)
      hkind
    intro hfield
    -- An empty field is read as `FROM_START`.
    by_cases hempty : v.field "WHERE" = ""
    · simp_all [location]
    · simp_all [location]

theorem blames_changedCase (hkind : v.head.kind = "text_changeCase") :
    (changedCase v).Blames S v.head.Refuses := by
  apply (blames_operand (hS _)).bind
  intro text
  simp only
  split
  · exact blames_pure _
  · exact blames_pure _
  · exact blames_helper.bind fun _ ↦ blames_pure _
  · apply Blames.bind
    · apply blames_unsupported ["UPPERCASE", "LOWERCASE", "TITLECASE"] (by decide) hkind
      simp_all
    · intro operator
      exact blames_pure _

end Refuses

/-! ## The table -/

/-- The emitter fails for what blocks of a kind cannot have, and takes their inputs for what they
hold. -/
def BlamesOnly (kind : String) (e : Emitter) : Prop :=
  ∀ v : View, v.head.kind = kind → (e.emit v).Blames (inputShape kind) v.head.Refuses

section Table

variable {kind : String}

/-- Most kinds of blocks have no statements. -/
theorem inputShape_of_notMem (h : kind ∉ statementInputs.map (·.1)) (input : String) :
    inputShape kind input = .value := by
  apply if_neg
  intro hmem
  exact h (List.mem_map_of_mem (f := (·.1)) hmem)

/-- Kinds of expressions have none. -/
theorem notMem_of_value {f : View → Recipe (String × Order)}
    (he : standard? kind = some (.value f)) : kind ∉ statementInputs.map (·.1) := by
  intro hmem
  have hstatements : ∀ kind ∈ statementInputs.map (·.1), shape? kind = some .statement := by decide
  have hstatement := hstatements kind hmem
  rw [shape?_of_standard? he] at hstatement
  cases hstatement

theorem blamesOnly_value {f : View → Recipe (String × Order)}
    (he : standard? kind = some (.value f)) (h : ∀ (v : View) (S : String → Shape),
      v.head.kind = kind → (∀ input, S input = .value) → (f v).Blames S v.head.Refuses) :
    BlamesOnly kind (.value f) := by
  intro v hv
  exact (h v _ hv (inputShape_of_notMem (notMem_of_value he))).bind fun _ ↦ blames_pure _

theorem blamesOnly_line (hkind : kind ∉ statementInputs.map (·.1)) {f : View → Recipe String}
    (h : ∀ (v : View) (S : String → Shape), (∀ input, S input = .value) →
      (f v).Blames S v.head.Refuses) : BlamesOnly kind (.statement f) := by
  intro v _
  exact (h v _ (inputShape_of_notMem hkind)).bind fun _ ↦ blames_pure _

theorem blamesOnly_statement {f : View → Recipe String}
    (h : ∀ v : View, (f v).Blames (inputShape kind) v.head.Refuses) :
    BlamesOnly kind (.statement f) := by
  intro v _
  exact (h v).bind fun _ ↦ blames_pure _

theorem blamesOnly_definition (hstatements : inputShape kind "STACK" = .statement)
    (hresult : inputShape kind "RETURN" = .value) :
    BlamesOnly kind (.definition definitionOf) := by
  intro v _
  exact (blames_definitionOf hstatements hresult).bind fun _ ↦ blames_pure _

end Table

/-- Every standard emitter fails for the block and the choice that it tells, or not at all. -/
theorem blamesOnly_standard {kind : String} {e : Emitter} (he : standard? kind = some e) :
    BlamesOnly kind e := by
  cases standard?_isStandard he with
  | colourPicker => exact blamesOnly_value he fun _ _ hk _ ↦ blames_colour hk
  | colourRgb => exact blamesOnly_value he fun _ _ _ hS ↦ blames_mixedColour hS
  | listsCreateWith | textJoin =>
    exact blamesOnly_value he fun _ _ hk hS ↦ blames_gather hS (by rw [hk]; rfl) _ _
  | listsRepeat => exact blamesOnly_value he fun _ _ _ hS ↦ blames_repeated hS
  | listsLength | listsIsEmpty | listsReverse | textLength | textIsEmpty =>
    exact blamesOnly_value he fun _ _ _ hS ↦ blames_unary hS _ _ _
  | listsIndexOf => exact blamesOnly_value he fun _ _ _ hS ↦ blames_position hS
  | listsGetIndex => exact blamesOnly_value he fun _ _ hk hS ↦ blames_listElement hS hk
  | listsSort => exact blamesOnly_value he fun _ _ _ hS ↦ blames_sorted hS
  | controlsIfelse =>
    exact blamesOnly_statement fun _ ↦ blames_branch (by decide) (by decide) (by decide)
  | logicCompare => exact blamesOnly_value he fun _ _ hk hS ↦ blames_comparison hS hk
  | logicOperation => exact blamesOnly_value he fun _ _ _ hS ↦ blames_connective hS
  | logicNegate => exact blamesOnly_value he fun _ _ _ hS ↦ blames_negation hS
  | logicTernary => exact blamesOnly_value he fun _ _ _ hS ↦ blames_choice hS
  | logoMove | logoRotate | logoCircle | logoSet =>
    exact blamesOnly_line (by decide) fun _ _ hS ↦ blames_commandOn hS _ _
  | logoSetcolor => exact blamesOnly_line (by decide) fun _ _ hS ↦ blames_colourCommand hS
  | controlsRepeatExt | controlsRepeat =>
    exact blamesOnly_statement fun _ ↦ blames_repetition (by decide) (by decide)
  | controlsWhileUntil =>
    exact blamesOnly_statement fun _ ↦ blames_conditionLoop (by decide) (by decide)
  | controlsFor =>
    exact blamesOnly_statement fun _ ↦
      blames_countingLoop (by decide) (by decide) (by decide) (by decide)
  | controlsForEach =>
    exact blamesOnly_statement fun _ ↦ blames_elementLoop (by decide) (by decide)
  | mathArithmetic => exact blamesOnly_value he fun _ _ hk hS ↦ blames_arithmetic hS hk
  | mathSingle | mathRound | mathTrig =>
    exact blamesOnly_value he fun _ _ hk hS ↦ blames_function hS (by decide) hk
  | mathConstant => exact blamesOnly_value he fun _ _ hk _ ↦ blames_constant hk
  | mathNumberProperty => exact blamesOnly_value he fun _ _ hk hS ↦ blames_property hS hk
  | mathChange => exact blamesOnly_line (by decide) fun _ _ hS ↦ blames_increment hS
  | mathModulo => exact blamesOnly_value he fun _ _ _ hS ↦ blames_binary hS _ _ _
  | mathRandomInt => exact blamesOnly_value he fun _ _ _ hS ↦ blames_randomInteger hS
  | mathAtan2 => exact blamesOnly_value he fun _ _ _ hS ↦ blames_angle hS
  | proceduresDefreturn | proceduresDefnoreturn =>
    exact blamesOnly_definition (by decide) (by decide)
  | proceduresCallreturn =>
    exact blamesOnly_value he fun _ _ _ hS ↦
      (blames_callText hS).bind fun _ ↦ blames_pure _
  | proceduresCallnoreturn =>
    exact blamesOnly_line (by decide) fun _ _ hS ↦ (blames_callText hS).bind fun _ ↦ blames_pure _
  | proceduresIfreturn =>
    exact blamesOnly_line (by decide) fun _ _ hS ↦ blames_conditionalReturn hS
  | textAppend => exact blamesOnly_line (by decide) fun _ _ hS ↦ blames_append hS
  | textCharAt => exact blamesOnly_value he fun _ _ hk hS ↦ blames_letter hS hk
  | textChangeCase => exact blamesOnly_value he fun _ _ hk hS ↦ blames_changedCase hS hk
  | textPrint => exact blamesOnly_line (by decide) fun _ _ hS ↦ blames_print hS
  | textPromptExt | textPrompt =>
    exact blamesOnly_value he fun _ _ _ hS ↦ blames_prompt hS
  | variablesGet | variablesGetDynamic =>
    exact blamesOnly_value he fun _ _ _ _ ↦ blames_variableValue
  | variablesSet | variablesSetDynamic =>
    exact blamesOnly_line (by decide) fun _ _ hS ↦ blames_assignment hS
  -- The rest ask for nothing and cannot fail.
  | colourRandom | listsCreateEmpty | logicBoolean | logicNull | logoGetcolor | logoGet | mathNumber
  | text | textMultiline => exact blamesOnly_value he fun _ _ _ _ ↦ blames_pure _
  | logoPen | logoMode | logoScreen => exact blamesOnly_statement fun _ ↦ blames_pure _

end Emitter

end Turtle

import Turtle.Proofs.Emitter.Agreement
import Turtle.Proofs.Emitter.Contract

/-!
# Emitters without bodies

Most kinds of blocks have nothing but values connected to them, and register nothing.  Those of
expressions leave a value, and those of statements leave a text that ends in a newline.
-/

namespace Turtle

open Logo (Order)

/-- A request for a value, a name or a known helper. -/
def Request.IsFlat : Request → Prop
  | body _ => False
  | helper key lines => (key, lines) ∈ Emitter.helpers
  | value _ _ | «variable» _ | procedure _ => True

namespace Recipe

variable {α β : Type} {P : Request → Prop} {Q : α → Prop}

/-- The recipe makes requests of a sort, registers nothing, and ends in a result of which `Q`
holds. -/
def Asks (P : Request → Prop) (Q : α → Prop) : Recipe α → Prop
  | done a => Q a
  | fail _ => True
  | ask q next => P q ∧ ∀ answer, (next answer).Asks P Q
  | hoist _ _ _ => False

theorem asks_bind {r : Recipe α} {f : α → Recipe β} {Q : β → Prop} :
    (r >>= f).Asks P Q ↔ r.Asks P fun a ↦ (f a).Asks P Q := by
  induction r with
  | done a => exact Iff.rfl
  | fail e => exact Iff.rfl
  | ask q next ih => exact and_congr_right fun _ ↦ forall_congr' fun a ↦ ih a
  | hoist name code next ih => exact Iff.rfl

theorem Asks.mono {r : Recipe α} {Q' : α → Prop} (h : r.Asks P Q) (himp : ∀ a, Q a → Q' a) :
    r.Asks P Q' := by
  induction r with
  | done a => exact himp a h
  | fail e => trivial
  | ask q next ih => exact ⟨h.1, fun answer ↦ ih answer (h.2 answer)⟩
  | hoist name code next ih => exact h

/-- What a recipe ends in when it is followed. -/
theorem Asks.of_run_ok {r : Recipe α} (h : r.Asks P Q) {indent : String} {n : Neighbours}
    {p q : Pass} {a : α} (hrun : r.run indent n p = .ok a q) : Q a := by
  induction r generalizing p with
  | done a =>
    cases hrun
    exact h
  | fail e => cases hrun
  | ask request next ih =>
    obtain ⟨answer, _, -, hrest⟩ := PassM.of_bind_ok hrun
    exact ih answer (h.2 answer) hrest
  | hoist name code next ih => exact h.elim

theorem asks_mapM_self {γ : Type} {g : γ → Recipe β} (hg : ∀ x, (g x).Asks P fun _ ↦ True)
    (xs : List γ) : (xs.mapM g).Asks P fun _ ↦ True := by
  induction xs with
  | nil => trivial
  | cons x xs ih =>
    rw [List.mapM_cons, asks_bind]
    refine (hg x).mono fun b _ ↦ ?_
    rw [asks_bind]
    exact ih.mono fun _ _ ↦ trivial

/-- The recipe needs no statements. -/
abbrev Flat (Q : α → Prop) (r : Recipe α) : Prop := r.Asks Request.IsFlat Q

theorem flat_operand {input : String} {outer : Order} {default : String} {f : String → Recipe α}
    (h : ∀ code, (f code).Flat Q) : (operand input outer default >>= f).Flat Q :=
  ⟨trivial, fun _ ↦ h _⟩

theorem flat_variable {nameOrId : String} {f : String → Recipe α} (h : ∀ name, (f name).Flat Q) :
    (variableName nameOrId >>= f).Flat Q := ⟨trivial, h⟩

theorem flat_procedure {name : String} {f : String → Recipe α} (h : ∀ chosen, (f chosen).Flat Q) :
    (procedureName name >>= f).Flat Q := ⟨trivial, h⟩

theorem flat_helper {key : String} {lines : List String} (hknown : (key, lines) ∈ Emitter.helpers)
    {f : String → Recipe α} (h : ∀ name, (f name).Flat Q) : (helper key lines >>= f).Flat Q :=
  ⟨hknown, h⟩

theorem flat_mapM {γ : Type} {g : γ → Recipe β} (hg : ∀ x, (g x).Flat fun _ ↦ True) {xs : List γ}
    {f : List β → Recipe α} (h : ∀ bs, (f bs).Flat Q) : (xs.mapM g >>= f).Flat Q :=
  asks_bind.2 ((asks_mapM_self hg xs).mono fun bs _ ↦ h bs)

/-- The recipe of an expression. -/
abbrev FlatValue (r : Recipe (String × Order)) : Prop := r.Flat fun _ ↦ True

/-- The recipe of a statement, which is ended by a newline. -/
abbrev FlatLine (r : Recipe String) : Prop := r.Flat fun code ↦ ∃ s, code = s ++ "\n"

end Recipe

namespace Emitter

open Recipe

variable {v : View}

/-! ## Expressions -/

theorem flat_colour : FlatValue (colour v) := by
  unfold colour
  split <;> trivial

theorem flat_mixedColour : FlatValue (mixedColour v) :=
  flat_operand fun _ ↦ flat_operand fun _ ↦ flat_operand fun _ ↦ trivial

theorem flat_unary (primitive input default : String) :
    FlatValue (unary primitive input default v) := flat_operand fun _ ↦ trivial

theorem flat_binary (primitive first second : String) : FlatValue (binary primitive first second) :=
  flat_operand fun _ ↦ flat_operand fun _ ↦ trivial

theorem flat_operand_self (input : String) (outer : Order) (default : String) :
    (operand input outer default).Flat fun _ ↦ True := ⟨trivial, fun _ ↦ trivial⟩

theorem flat_gather (primitive empty : String) : FlatValue (gather primitive empty v) := by
  unfold gather
  split
  · trivial
  · exact flat_operand fun _ ↦ flat_operand fun _ ↦ trivial
  · split
    · trivial
    · exact flat_mapM (fun i ↦ flat_operand_self _ _ _) fun _ ↦ trivial

theorem flat_repeated : FlatValue (repeated v) :=
  flat_helper (by simp [helpers]) fun _ ↦ flat_operand fun _ ↦ flat_operand fun _ ↦ trivial

theorem flat_position : FlatValue (position v) :=
  flat_operand fun _ ↦ flat_operand fun _ ↦ flat_helper (by simp [helpers]) fun _ ↦ trivial

theorem flat_adjustedIndex {α : Type} {Q : α → Prop} {input : String} {delta : Int} {negate : Bool}
    {order : Order} {f : String → Recipe α} (h : ∀ code, (f code).Flat Q) :
    (adjustedIndex v input delta negate order >>= f).Flat Q := by
  refine asks_bind.2 (Asks.mono (Q := fun _ ↦ True) ?_ fun code _ ↦ h code)
  unfold adjustedIndex
  generalize (if v.options.oneBased then delta else delta + 1) = d
  refine flat_operand fun code ↦ ?_
  split
  · trivial
  · split <;> trivial

theorem flat_listElement : FlatValue (listElement v) := by
  refine flat_operand fun list ↦ ?_
  split
  · trivial
  · trivial
  · exact flat_adjustedIndex fun _ ↦ trivial
  · trivial
  · trivial

theorem flat_letter : FlatValue (letter v) := by
  refine flat_operand fun text ↦ ?_
  split
  · trivial
  · trivial
  · exact flat_adjustedIndex fun _ ↦ trivial
  · exact flat_adjustedIndex fun _ ↦ flat_helper (by simp [helpers]) fun _ ↦ trivial
  · trivial
  · trivial

theorem flat_sorted : FlatValue (sorted v) :=
  flat_operand fun _ ↦ flat_helper (by simp [helpers]) fun _ ↦ trivial

theorem flat_changedCase : FlatValue (changedCase v) := by
  refine flat_operand fun text ↦ ?_
  simp only
  split
  · trivial
  · trivial
  · exact flat_helper (by simp [helpers]) fun _ ↦ trivial
  · trivial

theorem flat_comparison : FlatValue (comparison v) := by
  unfold comparison
  split
  · exact flat_operand fun _ ↦ flat_operand fun _ ↦ trivial
  · trivial

theorem flat_connective : FlatValue (connective v) :=
  flat_operand fun _ ↦ flat_operand fun _ ↦ trivial

theorem flat_choice : FlatValue (choice v) :=
  flat_operand fun _ ↦ flat_operand fun _ ↦ flat_operand fun _ ↦ trivial

theorem flat_arithmetic : FlatValue (arithmetic v) := by
  have hinfix (operator : String) (order : Order) : FlatValue (infixOf operator order) :=
    flat_operand fun _ ↦ flat_operand fun _ ↦ trivial
  unfold arithmetic
  split
  · exact hinfix _ _
  · exact hinfix _ _
  · exact hinfix _ _
  · exact hinfix _ _
  · exact flat_binary _ _ _
  · trivial

theorem flat_function : FlatValue (function v) := by
  unfold function
  simp only
  split
  · exact flat_operand fun _ ↦ trivial
  · split
    · exact flat_operand fun _ ↦ trivial
    · trivial

theorem flat_constant : FlatValue (constant v) := by
  unfold constant
  split <;> trivial

theorem flat_property : FlatValue (property v) := by
  unfold property
  simp only
  split
  · trivial
  · refine flat_operand fun x ↦ ?_
    split
    · trivial
    · trivial
    · trivial
    · trivial
    · trivial
    · exact flat_operand fun _ ↦ trivial
    · trivial

theorem flat_randomInteger : FlatValue (randomInteger v) :=
  flat_operand fun _ ↦ flat_operand fun _ ↦ trivial

theorem flat_angle : FlatValue (angle v) := flat_operand fun _ ↦ flat_operand fun _ ↦ trivial

theorem flat_multilineText : FlatValue (multilineText v) := trivial

theorem flat_prompt : FlatValue (prompt v) := by
  unfold prompt
  split
  · trivial
  · exact flat_operand fun _ ↦ trivial

theorem flat_variableValue : FlatValue (variableValue v) := flat_variable fun _ ↦ trivial

theorem flat_callText {α : Type} {Q : α → Prop} {f : String → Recipe α}
    (h : ∀ code, (f code).Flat Q) : (callText v >>= f).Flat Q := by
  refine asks_bind.2 (Asks.mono (Q := fun _ ↦ True) ?_ fun code _ ↦ h code)
  refine flat_procedure fun name ↦ flat_mapM (fun i ↦ ?_) fun _ ↦ trivial
  exact flat_operand fun _ ↦ trivial

theorem flat_call : FlatValue (call v) := flat_callText fun _ ↦ trivial

/-! ## Statements -/

theorem flat_command (field : String) : FlatLine (command field v) := ⟨_, rfl⟩

theorem flat_commandOn (field input : String) : FlatLine (commandOn field input v) :=
  flat_operand fun _ ↦ ⟨_, rfl⟩

theorem flat_colourCommand : FlatLine (colourCommand v) := flat_operand fun _ ↦ ⟨_, rfl⟩

theorem flat_assignment : FlatLine (assignment v) :=
  flat_operand fun _ ↦ flat_variable fun _ ↦ ⟨_, rfl⟩

theorem flat_increment : FlatLine (increment v) :=
  flat_operand fun _ ↦ flat_variable fun _ ↦ ⟨_, rfl⟩

theorem flat_append : FlatLine (append v) :=
  flat_variable fun _ ↦ flat_operand fun _ ↦ ⟨_, rfl⟩

theorem flat_callStatement : FlatLine (callStatement v) := flat_callText fun _ ↦ ⟨_, rfl⟩

theorem flat_print : FlatLine (print v) := flat_operand fun _ ↦ ⟨_, rfl⟩

/-! ## The table -/

/-- The emission is what a kind of this shape leaves. -/
def LeavesShape : Shape → Emission → Prop
  | .statement, .statement code => ∃ s, code = s ++ "\n"
  | .value, .value _ _ => True
  | _, _ => False

/-- The emitter does not place snippets, has no bodies and registers nothing. -/
def IsFlat (e : Emitter) : Prop := e.manual = false ∧ ∀ v, (e.emit v).Flat (LeavesShape e.shape)

theorem isFlat_value {f : View → Recipe (String × Order)} (h : ∀ v, FlatValue (f v)) :
    (Emitter.value f).IsFlat := ⟨rfl, fun v ↦ asks_bind.2 (h v)⟩

theorem isFlat_statement {f : View → Recipe String} (h : ∀ v, FlatLine (f v)) :
    (Emitter.statement f).IsFlat := ⟨rfl, fun v ↦ asks_bind.2 (h v)⟩

/-- Every standard emitter that has nothing to do with snippets. -/
theorem isFlat_standard {kind : String} {e : Emitter} (he : standard? kind = some e)
    (hkind : kind ∉ snippetKinds) : e.IsFlat := by
  cases standard?_isStandard he with
  | controlsIfelse | controlsRepeatExt | controlsRepeat | controlsWhileUntil | controlsFor
  | controlsForEach | proceduresDefreturn | proceduresDefnoreturn | proceduresIfreturn =>
    exact absurd (by decide) hkind
  | colourPicker => exact isFlat_value fun _ ↦ flat_colour
  | colourRgb => exact isFlat_value fun _ ↦ flat_mixedColour
  | listsCreateWith | textJoin => exact isFlat_value fun _ ↦ flat_gather _ _
  | listsRepeat => exact isFlat_value fun _ ↦ flat_repeated
  | listsLength | listsIsEmpty | listsReverse | textLength | textIsEmpty =>
    exact isFlat_value fun _ ↦ flat_unary _ _ _
  | listsIndexOf => exact isFlat_value fun _ ↦ flat_position
  | listsGetIndex => exact isFlat_value fun _ ↦ flat_listElement
  | listsSort => exact isFlat_value fun _ ↦ flat_sorted
  | logicCompare => exact isFlat_value fun _ ↦ flat_comparison
  | logicOperation => exact isFlat_value fun _ ↦ flat_connective
  | logicNegate => exact isFlat_value fun _ ↦ flat_operand fun _ ↦ trivial
  | logicTernary => exact isFlat_value fun _ ↦ flat_choice
  | logoMove | logoRotate | logoCircle | logoSet =>
    exact isFlat_statement fun _ ↦ flat_commandOn _ _
  | logoPen | logoMode | logoScreen => exact isFlat_statement fun _ ↦ flat_command _
  | logoSetcolor => exact isFlat_statement fun _ ↦ flat_colourCommand
  | mathArithmetic => exact isFlat_value fun _ ↦ flat_arithmetic
  | mathSingle | mathRound | mathTrig => exact isFlat_value fun _ ↦ flat_function
  | mathConstant => exact isFlat_value fun _ ↦ flat_constant
  | mathNumberProperty => exact isFlat_value fun _ ↦ flat_property
  | mathChange => exact isFlat_statement fun _ ↦ flat_increment
  | mathModulo => exact isFlat_value fun _ ↦ flat_binary _ _ _
  | mathRandomInt => exact isFlat_value fun _ ↦ flat_randomInteger
  | mathAtan2 => exact isFlat_value fun _ ↦ flat_angle
  | proceduresCallreturn => exact isFlat_value fun _ ↦ flat_call
  | proceduresCallnoreturn => exact isFlat_statement fun _ ↦ flat_callStatement
  | textMultiline => exact isFlat_value fun _ ↦ flat_multilineText
  | textAppend => exact isFlat_statement fun _ ↦ flat_append
  | textCharAt => exact isFlat_value fun _ ↦ flat_letter
  | textChangeCase => exact isFlat_value fun _ ↦ flat_changedCase
  | textPrint => exact isFlat_statement fun _ ↦ flat_print
  | textPromptExt | textPrompt => exact isFlat_value fun _ ↦ flat_prompt
  | variablesGet | variablesGetDynamic => exact isFlat_value fun _ ↦ flat_variableValue
  | variablesSet | variablesSetDynamic => exact isFlat_statement fun _ ↦ flat_assignment
  -- Expressions that ask for nothing.
  | colourRandom | listsCreateEmpty | logicBoolean | logicNull | logoGetcolor | logoGet | mathNumber
  | text => exact isFlat_value fun _ ↦ trivial

end Emitter

end Turtle

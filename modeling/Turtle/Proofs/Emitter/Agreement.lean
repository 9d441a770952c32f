import Turtle.Proofs.Emitter.Standard

/-!
# What emitters look at

Of a block, an emitter looks at its kind, its id, its mutation, the names of its inputs and the
texts of its fields, and of the options at the indentation and at how positions are counted.  Only a
few kinds of blocks have to do with snippets.  So two views that agree on all this are as good as
one, whatever else is different about them.
-/

namespace Turtle

/-- Two views tell the same, apart from the snippets of the options. -/
structure View.Agrees (v v' : View) : Prop where
  manual : v.manual = v'.manual
  kind : v.head.kind = v'.head.kind
  id : v.head.id = v'.head.id
  mutation : v.head.mutation = v'.head.mutation
  inputNames : v.inputNames = v'.inputNames
  field : ∀ name, v.field name = v'.field name
  hasField : ∀ name, v.head.hasField name = v'.head.hasField name
  oneBased : v.options.oneBased = v'.options.oneBased
  indent : v.options.indent = v'.options.indent

namespace Emitter

/-- The kinds of blocks that have to do with snippets. -/
def snippetKinds : List String := [
  "controls_ifelse", "controls_repeat_ext", "controls_repeat", "controls_whileUntil",
  "controls_for", "controls_forEach", "procedures_defreturn", "procedures_defnoreturn",
  "procedures_ifreturn"]

/-- The emitter of a kind does the same for two views that agree, with the same snippets if it has
to do with them. -/
def IsDetermined (entry : String × Emitter) : Prop :=
  ∀ ⦃v v' : View⦄, v.Agrees v' → (entry.1 ∈ snippetKinds → v.options = v'.options) →
    entry.2.emit v = entry.2.emit v'

section Recipes

variable {v v' : View}

theorem unsupported_congr (h : v.Agrees v') {α : Type} (field : String) :
    (v.unsupported field : Recipe α) = v'.unsupported field := by
  simp only [View.unsupported, h.kind, h.field]

theorem function_congr (h : v.Agrees v') : function v = function v' := by
  simp only [function, h.field, unsupported_congr h]

theorem adjustedIndex_congr (h : v.Agrees v') (input : String) (delta : Int) (negate : Bool)
    (order : Logo.Order) :
    adjustedIndex v input delta negate order = adjustedIndex v' input delta negate order := by
  simp only [adjustedIndex, h.oneBased]

theorem itemCount_congr (h : v.Agrees v') : itemCount v = itemCount v' := by
  simp only [itemCount, h.mutation, h.inputNames]

theorem capacity_congr (h : v.Agrees v') : capacity v = capacity v' := by
  simp only [capacity, h.inputNames]

theorem location_congr (h : v.Agrees v') : location v = location v' := by
  simp only [location, h.field]

theorem mode_congr (h : v.Agrees v') : mode v = mode v' := by
  simp only [mode, h.field]

theorem callText_congr (h : v.Agrees v') : callText v = callText v' := by
  simp only [callText, callee, h.mutation, h.field]

/-! ## Snippets -/

theorem loopBody_congr (h : v.Agrees v') (ho : v.options = v'.options) :
    loopBody v = loopBody v' := by
  simp only [loopBody, ho, h.manual, h.id]

theorem branch_congr (h : v.Agrees v') (ho : v.options = v'.options) : branch v = branch v' := by
  simp only [branch, ho, h.id]

theorem repetition_congr (h : v.Agrees v') (ho : v.options = v'.options) :
    repetition v = repetition v' := by
  simp only [repetition, h.field, h.hasField, loopBody_congr h ho]

theorem conditionLoop_congr (h : v.Agrees v') (ho : v.options = v'.options) :
    conditionLoop v = conditionLoop v' := by
  simp only [conditionLoop, h.field, loopBody_congr h ho]

theorem countingLoop_congr (h : v.Agrees v') (ho : v.options = v'.options) :
    countingLoop v = countingLoop v' := by
  simp only [countingLoop, h.field, loopBody_congr h ho]

theorem elementLoop_congr (h : v.Agrees v') (ho : v.options = v'.options) :
    elementLoop v = elementLoop v' := by
  simp only [elementLoop, h.field, loopBody_congr h ho, ho]

theorem definitionOf_congr (h : v.Agrees v') (ho : v.options = v'.options) :
    definitionOf v = definitionOf v' := by
  simp only [definitionOf, h.field, h.id, h.mutation, ho]

theorem conditionalReturn_congr (h : v.Agrees v') (ho : v.options = v'.options) :
    conditionalReturn v = conditionalReturn v' := by
  simp only [conditionalReturn, h.id, h.mutation, ho]

end Recipes

section Table

variable {kind : String}

theorem determined_value {f : View → Recipe (String × Logo.Order)}
    (h : ∀ v v' : View, v.Agrees v' → f v = f v') : IsDetermined (kind, .value f) := by
  intro v v' hv _
  simp only [Emitter.value, h v v' hv]

theorem determined_statement {f : View → Recipe String}
    (h : ∀ v v' : View, v.Agrees v' → f v = f v') : IsDetermined (kind, .statement f) := by
  intro v v' hv _
  simp only [Emitter.statement, h v v' hv]

theorem determined_snippets {f : View → Recipe String}
    (h : ∀ v v' : View, v.Agrees v' → v.options = v'.options → f v = f v') (manual : Bool)
    (hkind : kind ∈ snippetKinds) : IsDetermined (kind, { statement f with manual }) := by
  intro v v' hv ho
  simp only [Emitter.statement, h v v' hv (ho hkind)]

theorem determined_definition (hkind : kind ∈ snippetKinds) :
    IsDetermined (kind, .definition definitionOf) := by
  intro v v' hv ho
  simp only [Emitter.definition, definitionOf_congr hv (ho hkind)]

/-- An emitter that does not look at its block at all. -/
theorem determined_const (r : Recipe (String × Logo.Order)) :
    IsDetermined (kind, .value fun _ ↦ r) := determined_value fun _ _ _ ↦ rfl

/-- Every standard emitter looks at nothing else. -/
theorem determined_standard {e : Emitter} (he : standard? kind = some e) :
    IsDetermined (kind, e) := by
  cases standard?_isStandard he with
  | colourPicker => exact determined_value fun _ _ h ↦ by simp only [colour, h.field]
  | listsCreateWith | textJoin =>
    exact determined_value fun _ _ h ↦ by simp only [gather, itemCount_congr h, capacity_congr h]
  | listsIndexOf =>
    exact determined_value fun _ _ h ↦ by simp only [position, h.field, h.oneBased]
  | listsGetIndex =>
    exact determined_value fun _ _ h ↦ by
      simp only [listElement, mode_congr h, location_congr h, adjustedIndex_congr h, h.kind]
  | listsSort => exact determined_value fun _ _ h ↦ by simp only [sorted, h.field]
  | controlsIfelse => exact determined_snippets (fun _ _ ↦ branch_congr) true (by decide)
  | logicCompare =>
    exact determined_value fun _ _ h ↦ by simp only [comparison, h.field, unsupported_congr h]
  | logicOperation => exact determined_value fun _ _ h ↦ by simp only [connective, h.field]
  | logicBoolean => exact determined_value fun _ _ h ↦ by simp only [truthValue, h.field]
  | logoMove | logoRotate | logoCircle | logoSet =>
    exact determined_statement fun _ _ h ↦ by simp only [commandOn, chosen, h.field]
  | logoPen | logoMode | logoScreen =>
    exact determined_statement fun _ _ h ↦ by simp only [command, chosen, h.field]
  | logoSetcolor =>
    exact determined_statement fun _ _ h ↦ by simp only [colourCommand, chosen, h.field]
  | logoGetcolor | logoGet =>
    exact determined_value fun _ _ h ↦ by simp only [report, chosen, h.field]
  | controlsRepeatExt | controlsRepeat =>
    exact determined_snippets (fun _ _ ↦ repetition_congr) false (by decide)
  | controlsWhileUntil =>
    exact determined_snippets (fun _ _ ↦ conditionLoop_congr) false (by decide)
  | controlsFor => exact determined_snippets (fun _ _ ↦ countingLoop_congr) false (by decide)
  | controlsForEach => exact determined_snippets (fun _ _ ↦ elementLoop_congr) false (by decide)
  | mathNumber => exact determined_value fun _ _ h ↦ by simp only [number, h.field]
  | mathArithmetic =>
    exact determined_value fun _ _ h ↦ by simp only [arithmetic, h.field, unsupported_congr h]
  | mathSingle | mathRound | mathTrig => exact determined_value fun _ _ ↦ function_congr
  | mathConstant =>
    exact determined_value fun _ _ h ↦ by simp only [constant, h.field, unsupported_congr h]
  | mathNumberProperty =>
    exact determined_value fun _ _ h ↦ by simp only [property, h.field, unsupported_congr h]
  | mathChange => exact determined_statement fun _ _ h ↦ by simp only [increment, h.field]
  | proceduresDefreturn | proceduresDefnoreturn => exact determined_definition (by decide)
  | proceduresCallreturn =>
    exact determined_value fun _ _ h ↦ by simp only [call, callText_congr h]
  | proceduresCallnoreturn =>
    exact determined_statement fun _ _ h ↦ by simp only [callStatement, callText_congr h]
  | proceduresIfreturn =>
    exact determined_snippets (fun _ _ ↦ conditionalReturn_congr) false (by decide)
  | text => exact determined_value fun _ _ h ↦ by simp only [text, h.field]
  | textMultiline => exact determined_value fun _ _ h ↦ by simp only [multilineText, h.field]
  | textAppend => exact determined_statement fun _ _ h ↦ by simp only [append, h.field]
  | textCharAt =>
    exact determined_value fun _ _ h ↦ by
      simp only [letter, location_congr h, adjustedIndex_congr h, unsupported_congr h]
  | textChangeCase =>
    exact determined_value fun _ _ h ↦ by simp only [changedCase, h.field, unsupported_congr h]
  | textPrint => exact determined_statement fun _ _ _ ↦ rfl
  | textPromptExt | textPrompt =>
    exact determined_value fun _ _ h ↦ by simp only [prompt, h.field, h.hasField]
  | variablesGet | variablesGetDynamic =>
    exact determined_value fun _ _ h ↦ by simp only [variableValue, h.field]
  | variablesSet | variablesSetDynamic =>
    exact determined_statement fun _ _ h ↦ by simp only [assignment, h.field]
  | colourRandom | colourRgb | listsCreateEmpty | listsRepeat | listsLength | listsIsEmpty
  | listsReverse | logicNegate | logicNull | logicTernary | mathModulo | mathRandomInt | mathAtan2
  | textLength | textIsEmpty => exact determined_const _

/-- What a standard emitter does for two views that agree. -/
theorem emit_congr {e : Emitter} (he : standard? kind = some e) {v v' : View}
    (h : v.Agrees v') (ho : kind ∈ snippetKinds → v.options = v'.options) :
    e.emit v = e.emit v' := determined_standard he h ho

end Table

end Emitter

end Turtle

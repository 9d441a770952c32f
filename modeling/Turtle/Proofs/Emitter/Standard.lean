import Turtle.Emitter.Standard
import Turtle.Table

/-!
# The standard kinds, one by one

What holds of all standard emitters is proved by cases on the kind: `IsStandard` has one case for
each row of the table, with the name of its kind.
-/

namespace Turtle.Emitter

/-- The kind is a standard one and has the emitter. -/
inductive IsStandard : String → Emitter → Prop
  | colourPicker : IsStandard "colour_picker" (.value colour)
  | colourRandom : IsStandard "colour_random" (.value randomColour)
  | colourRgb : IsStandard "colour_rgb" (.value mixedColour)
  | listsCreateEmpty : IsStandard "lists_create_empty" (.value emptyList)
  | listsCreateWith : IsStandard "lists_create_with" (.value (gather "list" "[]"))
  | listsRepeat : IsStandard "lists_repeat" (.value repeated)
  | listsLength : IsStandard "lists_length" (.value (unary "count" "VALUE" "[]"))
  | listsIsEmpty : IsStandard "lists_isEmpty" (.value (unary "emptyp" "VALUE" "[]"))
  | listsIndexOf : IsStandard "lists_indexOf" (.value position)
  | listsGetIndex : IsStandard "lists_getIndex" (.value listElement)
  | listsSort : IsStandard "lists_sort" (.value sorted)
  | listsReverse : IsStandard "lists_reverse" (.value (unary "reverse" "LIST" "[]"))
  | controlsIfelse : IsStandard "controls_ifelse" { statement branch with manual := true }
  | logicCompare : IsStandard "logic_compare" (.value comparison)
  | logicOperation : IsStandard "logic_operation" (.value connective)
  | logicNegate : IsStandard "logic_negate" (.value negation)
  | logicBoolean : IsStandard "logic_boolean" (.value truthValue)
  | logicNull : IsStandard "logic_null" (.value emptyList)
  | logicTernary : IsStandard "logic_ternary" (.value choice)
  | logoMove : IsStandard "logo_move" (.statement (commandOn "OP" "AMOUNT"))
  | logoRotate : IsStandard "logo_rotate" (.statement (commandOn "DIRECTION" "AMOUNT"))
  | logoCircle : IsStandard "logo_circle" (.statement (commandOn "METHOD" "R"))
  | logoPen : IsStandard "logo_pen" (.statement (command "OP"))
  | logoSetcolor : IsStandard "logo_setcolor" (.statement colourCommand)
  | logoGetcolor : IsStandard "logo_getcolor" (.value report)
  | logoMode : IsStandard "logo_mode" (.statement (command "WHICH"))
  | logoScreen : IsStandard "logo_screen" (.statement (command "WHICH"))
  | logoSet : IsStandard "logo_set" (.statement (commandOn "WHICH" "VALUE"))
  | logoGet : IsStandard "logo_get" (.value report)
  | controlsRepeatExt : IsStandard "controls_repeat_ext" (.statement repetition)
  | controlsRepeat : IsStandard "controls_repeat" (.statement repetition)
  | controlsWhileUntil : IsStandard "controls_whileUntil" (.statement conditionLoop)
  | controlsFor : IsStandard "controls_for" (.statement countingLoop)
  | controlsForEach : IsStandard "controls_forEach" (.statement elementLoop)
  | mathNumber : IsStandard "math_number" (.value number)
  | mathArithmetic : IsStandard "math_arithmetic" (.value arithmetic)
  | mathSingle : IsStandard "math_single" (.value function)
  | mathRound : IsStandard "math_round" (.value function)
  | mathTrig : IsStandard "math_trig" (.value function)
  | mathConstant : IsStandard "math_constant" (.value constant)
  | mathNumberProperty : IsStandard "math_number_property" (.value property)
  | mathChange : IsStandard "math_change" (.statement increment)
  | mathModulo : IsStandard "math_modulo" (.value modulo)
  | mathRandomInt : IsStandard "math_random_int" (.value randomInteger)
  | mathAtan2 : IsStandard "math_atan2" (.value angle)
  | proceduresDefreturn : IsStandard "procedures_defreturn" (.definition definitionOf)
  | proceduresDefnoreturn : IsStandard "procedures_defnoreturn" (.definition definitionOf)
  | proceduresCallreturn : IsStandard "procedures_callreturn" (.value call)
  | proceduresCallnoreturn : IsStandard "procedures_callnoreturn" (.statement callStatement)
  | proceduresIfreturn : IsStandard "procedures_ifreturn" (.statement conditionalReturn)
  | text : IsStandard "text" (.value text)
  | textMultiline : IsStandard "text_multiline" (.value multilineText)
  | textJoin : IsStandard "text_join" (.value (gather "word" emptyWord))
  | textAppend : IsStandard "text_append" (.statement append)
  | textLength : IsStandard "text_length" (.value (unary "count" "VALUE" emptyWord))
  | textIsEmpty : IsStandard "text_isEmpty" (.value (unary "emptyp" "VALUE" emptyWord))
  | textCharAt : IsStandard "text_charAt" (.value letter)
  | textChangeCase : IsStandard "text_changeCase" (.value changedCase)
  | textPrint : IsStandard "text_print" (.statement print)
  | textPromptExt : IsStandard "text_prompt_ext" (.value prompt)
  | textPrompt : IsStandard "text_prompt" (.value prompt)
  | variablesGet : IsStandard "variables_get" (.value variableValue)
  | variablesSet : IsStandard "variables_set" (.statement assignment)
  | variablesGetDynamic : IsStandard "variables_get_dynamic" (.value variableValue)
  | variablesSetDynamic : IsStandard "variables_set_dynamic" (.statement assignment)

theorem isStandard_of_mem : ∀ row ∈ standard, IsStandard row.1 row.2 := by
  simp only [standard, List.forall_mem_cons]
  exact ⟨.colourPicker, .colourRandom, .colourRgb, .listsCreateEmpty, .listsCreateWith,
    .listsRepeat, .listsLength, .listsIsEmpty, .listsIndexOf, .listsGetIndex, .listsSort,
    .listsReverse, .controlsIfelse, .logicCompare, .logicOperation, .logicNegate, .logicBoolean,
    .logicNull, .logicTernary, .logoMove, .logoRotate, .logoCircle, .logoPen, .logoSetcolor,
    .logoGetcolor, .logoMode, .logoScreen, .logoSet, .logoGet, .controlsRepeatExt, .controlsRepeat,
    .controlsWhileUntil, .controlsFor, .controlsForEach, .mathNumber, .mathArithmetic, .mathSingle,
    .mathRound, .mathTrig, .mathConstant, .mathNumberProperty, .mathChange, .mathModulo,
    .mathRandomInt, .mathAtan2, .proceduresDefreturn, .proceduresDefnoreturn, .proceduresCallreturn,
    .proceduresCallnoreturn, .proceduresIfreturn, .text, .textMultiline, .textJoin, .textAppend,
    .textLength, .textIsEmpty, .textCharAt, .textChangeCase, .textPrint, .textPromptExt,
    .textPrompt, .variablesGet, .variablesSet, .variablesGetDynamic, .variablesSetDynamic,
    List.forall_mem_nil _⟩

variable {kind : String} {e : Emitter}

theorem standard?_isStandard (he : standard? kind = some e) : IsStandard kind e :=
  isStandard_of_mem (kind, e) (Table.mem_of_lookup he)

theorem shape?_of_standard? (he : standard? kind = some e) : shape? kind = some e.shape := by
  rw [shape?, he, Option.map_some]

end Turtle.Emitter

import Turtle.Emitter.Arithmetic
import Turtle.Emitter.Control
import Turtle.Emitter.Drawing
import Turtle.Emitter.Procedure
import Turtle.Emitter.Sequence
import Turtle.Emitter.Variable

/-!
# The standard kinds of blocks
-/

namespace Turtle.Emitter

/-- The emitters of the standard kinds. -/
def standard : List (String × Emitter) := [
  ("colour_picker", .value colour),
  ("colour_random", .value randomColour),
  ("colour_rgb", .value mixedColour),
  ("lists_create_empty", .value emptyList),
  ("lists_create_with", .value (gather "list" "[]")),
  ("lists_repeat", .value repeated),
  ("lists_length", .value (unary "count" "VALUE" "[]")),
  ("lists_isEmpty", .value (unary "emptyp" "VALUE" "[]")),
  ("lists_indexOf", .value position),
  ("lists_getIndex", .value listElement),
  ("lists_sort", .value sorted),
  ("lists_reverse", .value (unary "reverse" "LIST" "[]")),
  ("controls_ifelse", { statement branch with manual := true }),
  ("logic_compare", .value comparison),
  ("logic_operation", .value connective),
  ("logic_negate", .value negation),
  ("logic_boolean", .value truthValue),
  ("logic_null", .value emptyList),
  ("logic_ternary", .value choice),
  ("logo_move", .statement (commandOn "OP" "AMOUNT")),
  ("logo_rotate", .statement (commandOn "DIRECTION" "AMOUNT")),
  ("logo_circle", .statement (commandOn "METHOD" "R")),
  ("logo_pen", .statement (command "OP")),
  ("logo_setcolor", .statement colourCommand),
  ("logo_getcolor", .value report),
  ("logo_mode", .statement (command "WHICH")),
  ("logo_screen", .statement (command "WHICH")),
  ("logo_set", .statement (commandOn "WHICH" "VALUE")),
  ("logo_get", .value report),
  ("controls_repeat_ext", .statement repetition),
  ("controls_repeat", .statement repetition),
  ("controls_whileUntil", .statement conditionLoop),
  ("controls_for", .statement countingLoop),
  ("controls_forEach", .statement elementLoop),
  ("math_number", .value number),
  ("math_arithmetic", .value arithmetic),
  ("math_single", .value function),
  ("math_round", .value function),
  ("math_trig", .value function),
  ("math_constant", .value constant),
  ("math_number_property", .value property),
  ("math_change", .statement increment),
  ("math_modulo", .value modulo),
  ("math_random_int", .value randomInteger),
  ("math_atan2", .value angle),
  ("procedures_defreturn", .definition definitionOf),
  ("procedures_defnoreturn", .definition definitionOf),
  ("procedures_callreturn", .value call),
  ("procedures_callnoreturn", .statement callStatement),
  ("procedures_ifreturn", .statement conditionalReturn),
  ("text", .value text),
  ("text_multiline", .value multilineText),
  ("text_join", .value (gather "word" emptyWord)),
  ("text_append", .statement append),
  ("text_length", .value (unary "count" "VALUE" emptyWord)),
  ("text_isEmpty", .value (unary "emptyp" "VALUE" emptyWord)),
  ("text_charAt", .value letter),
  ("text_changeCase", .value changedCase),
  ("text_print", .statement print),
  ("text_prompt_ext", .value prompt),
  ("text_prompt", .value prompt),
  ("variables_get", .value variableValue),
  ("variables_set", .statement assignment),
  ("variables_get_dynamic", .value variableValue),
  ("variables_set_dynamic", .statement assignment)]

/-- The emitter of a standard kind. -/
def standard? (kind : String) : Option Emitter := standard.lookup kind

/-- The shape of a standard kind. -/
def shape? (kind : String) : Option Shape := (standard? kind).map (·.shape)

end Turtle.Emitter

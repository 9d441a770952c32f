/-!
# Logo primitives
-/

namespace Turtle.Logo

/-- The primitives that the name of a user must not shadow. -/
def primitives : List String := [
  "abs", "and", "arccos", "arcsin", "arctan", "back", "bf", "bk", "bl", "butfirst", "butlast",
  "cascade", "clean", "clearscreen", "cos", "count", "cs", "definedp", "difference", "emptyp",
  "end", "equalp", "exp", "false", "fd", "fill", "filter", "find", "first", "for", "foreach",
  "forever", "forward", "fput", "home", "if", "ifelse", "ignore", "int", "item", "left", "list",
  "listp", "ln", "local", "localmake", "log10", "lowercase", "lput", "lt", "make", "map",
  "memberp", "modulo", "not", "numberp", "op", "or", "output", "pd", "pendown", "penup", "pi",
  "pick", "power", "pr", "print", "product", "pu", "quotient", "random", "readword", "reduce",
  "remainder", "repeat", "reverse", "right", "round", "rt", "run", "se", "sentence", "setpc",
  "show", "sin", "sort", "sqrt", "stop", "sum", "tan", "thing", "to", "true", "type", "until",
  "uppercase", "while", "word", "wordp"]

end Turtle.Logo

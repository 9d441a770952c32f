import Turtle.Compile.Recipe
import Turtle.Number.Reader

/-!
# Positions in lists and texts

Logo counts from one. A position that a workspace counts otherwise, or counts from the end, is
adjusted: a literal on the spot, any other expression by arithmetic in the program.
-/

namespace Turtle

open Logo (Order)

/-- Add an integer to an expression, in words. -/
def plusText (code : String) (delta : Int) : String :=
  if 0 < delta then code ++ " + " ++ toString delta
  else if delta < 0 then code ++ " - " ++ toString (-delta)
  else code

/-- The order that an operand of the adjustment must have. -/
def adjustmentOrder (delta : Int) (negate : Bool) (order : Order) : Order :=
  if 0 < delta then .addition
  else if delta < 0 then .subtraction
  else if negate then .unaryNegation
  else order

/-- The position connected to an input, moved by `delta`, and then negated if so asked, as an
operand of the given order. -/
def adjustedIndex (v : View) (input : String) (delta : Int) (negate : Bool) (order : Order) :
    Recipe String := do
  let delta := if v.options.oneBased then delta else delta + 1
  let inner := adjustmentOrder delta negate order
  let code ← Recipe.operand input inner (if v.options.oneBased then "1" else "0")
  if delta == 0 && !negate then return code
  else if Number.isLiteral code then
    let moved := Number.read code + Binary64.ofInt delta
    return Number.write (if negate then -moved else moved)
  else
    let moved := plusText code delta
    let code :=
      if negate then (if delta == 0 then "-" ++ moved else "-(" ++ moved ++ ")") else moved
    return if order.level ≤ inner.level then "(" ++ code ++ ")" else code

end Turtle

import Turtle.Compile.Recipe
import Turtle.Logo.Word

/-!
# Variables
-/

namespace Turtle.Emitter

open Logo (Order)
open Recipe

/-- The value of a variable. -/
def variableValue (v : View) : Recipe (String × Order) := do
  return (":" ++ (← variableName (v.field "VAR")), .atomic)

/-- Give a variable a value. -/
def assignment (v : View) : Recipe String := do
  let value ← operand "VALUE" .atomic "0"
  let name ← variableName (v.field "VAR")
  return "make " ++ Logo.quote name ++ " " ++ value ++ "\n"

/-- Add to a variable. One that does not hold a number counts as zero. -/
def increment (v : View) : Recipe String := do
  let delta ← operand "DELTA" .addition "0"
  let name ← variableName (v.field "VAR")
  let number := "(ifelse numberp :" ++ name ++ " :" ++ name ++ " 0)"
  return "make \"" ++ name ++ " " ++ number ++ " + " ++ delta ++ "\n"

/-- Append a text to a variable. -/
def append (v : View) : Recipe String := do
  let name ← variableName (v.field "VAR")
  let text ← operand "TEXT" .loose "\""
  return "make \"" ++ name ++ " word :" ++ name ++ " " ++ text ++ "\n"

end Turtle.Emitter

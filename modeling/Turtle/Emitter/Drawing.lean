import Turtle.Compile.Recipe
import Turtle.Text.Case
import Turtle.Text.Digit

/-!
# Drawing

The choices of drawing blocks are Logo primitives in capital letters. A colour is a list of three
numbers from 0 to 255.
-/

namespace Turtle.Emitter

open Logo (Order)
open Recipe

/-- The primitive chosen in a field. -/
def chosen (v : View) (field : String) : String := lower (v.field field)

/-- A command that takes nothing. -/
def command (field : String) (v : View) : Recipe String := return chosen v field ++ "\n"

/-- A command that takes a number. -/
def commandOn (field input : String) (v : View) : Recipe String := do
  return chosen v field ++ " " ++ (← operand input .loose "0") ++ "\n"

/-- A command that takes a colour. -/
def colourCommand (v : View) : Recipe String := do
  return chosen v "WHICH" ++ " " ++ (← operand "COLOR" .atomic "[0 0 0]") ++ "\n"

/-- A property of the turtle. -/
def report (v : View) : Recipe (String × Order) := return (chosen v "WHICH", .procedure)

/-- One part of a colour from two characters: two hexadecimal digits, or a plus sign and one. -/
def channel? (a b : Char) : Option Nat :=
  if a = '+' then Text.hexValue? b
  else do return 16 * (← Text.hexValue? a) + (← Text.hexValue? b)

/-- The parts of a colour of the form `#rrggbb`. -/
def colour? : List Char → Option (Nat × Nat × Nat)
  | ['#', a, b, c, d, e, f] => do return (← channel? a b, ← channel? c d, ← channel? e f)
  | _ => none

/-- A colour that was picked. -/
def colour (v : View) : Recipe (String × Order) :=
  match colour? (v.field "COLOUR").toList with
  | some (r, g, b) =>
    return ("[" ++ toString r ++ " " ++ toString g ++ " " ++ toString b ++ "]", .atomic)
  | none => fail (.invalidColour (v.field "COLOUR"))

/-- A colour chosen at random. -/
def randomColour (_ : View) : Recipe (String × Order) :=
  return ("(list random 256 random 256 random 256)", .atomic)

/-- A colour mixed from percentages. -/
def mixedColour (_ : View) : Recipe (String × Order) := do
  let r ← operand "RED" .multiplication "0"
  let g ← operand "GREEN" .multiplication "0"
  let b ← operand "BLUE" .multiplication "0"
  return ("(list 2.55 * " ++ r ++ " 2.55 * " ++ g ++ " 2.55 * " ++ b ++ ")", .atomic)

end Turtle.Emitter

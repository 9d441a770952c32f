import Turtle.Compile.Recipe
import Turtle.Number.Reader

/-!
# Numbers and arithmetic

Infix operators bind as their order says; functions are primitives with their inputs behind them.
An operand that is not connected is zero.
-/

namespace Turtle.Emitter

open Logo (Order)
open Recipe

/-- A literal in normal form. A negative one is written with a sign and binds like one. -/
def number (v : View) : Recipe (String × Order) :=
  let x := Number.read (v.field "NUM")
  return (Number.write x, if x.isNonneg then .atomic else .unaryNegation)

/-- Two operands around an infix operator. -/
def infixOf (operator : String) (order : Order) : Recipe (String × Order) := do
  let a ← operand "A" order "0"
  let b ← operand "B" order "0"
  return (a ++ " " ++ operator ++ " " ++ b, order)

/-- A primitive with two inputs. -/
def binary (primitive first second : String) : Recipe (String × Order) := do
  let a ← operand first .loose "0"
  let b ← operand second .loose "0"
  return (primitive ++ " " ++ a ++ " " ++ b, .procedure)

/-- One of the five operations of arithmetic. -/
def arithmetic (v : View) : Recipe (String × Order) :=
  match v.field "OP" with
  | "ADD" => infixOf "+" .addition
  | "MINUS" => infixOf "-" .subtraction
  | "MULTIPLY" => infixOf "*" .multiplication
  | "DIVIDE" => infixOf "/" .division
  | "POWER" => binary "power" "A" "B"
  | _ => v.unsupported "OP"

/-- The primitive of a function of one number. -/
def functionPrimitive? : String → Option String
  | "ABS" => some "abs"
  | "ROOT" => some "sqrt"
  | "LN" => some "ln"
  | "EXP" => some "exp"
  | "POW10" => some "power 10"
  | "ROUND" => some "round"
  | "ROUNDUP" => some "round 0.5 +"
  | "ROUNDDOWN" => some "int"
  | "SIN" => some "sin"
  | "COS" => some "cos"
  | "TAN" => some "tan"
  | "LOG10" => some "log10"
  | "ASIN" => some "arcsin"
  | "ACOS" => some "arccos"
  | "ATAN" => some "arctan"
  | _ => none

/-- Put a minus sign in front of an operand. A space keeps it apart from another one, as two of them
in a row would be read as one word. -/
def minus (code : String) : String :=
  if code.toList.head? == some '-' then "- " ++ code else "-" ++ code

/-- Functions of one number. Rounding up adds a half first, so its operand stands in a sum. -/
def function (v : View) : Recipe (String × Order) :=
  let operator := v.field "OP"
  if operator == "NEG" then do
    let x ← operand "NUM" .unaryNegation "0"
    return (minus x, .unaryNegation)
  else match functionPrimitive? operator with
    | some primitive => do
      let x ← operand "NUM" (if operator == "ROUNDUP" then .addition else .loose) "0"
      return (primitive ++ " " ++ x, .procedure)
    | none => v.unsupported "OP"

/-- A constant of mathematics. -/
def constant (v : View) : Recipe (String × Order) :=
  match v.field "CONSTANT" with
  | "PI" => return ("pi", .atomic)
  | "E" => return ("exp 1", .procedure)
  | "GOLDEN_RATIO" => return ("(1 + sqrt 5) / 2", .division)
  | "SQRT2" => return ("sqrt 2", .procedure)
  | "SQRT1_2" => return ("sqrt 1/2", .procedure)
  | _ => v.unsupported "CONSTANT"

/-- Tests of a number. The number is computed before a test that is not offered is refused. -/
def property (v : View) : Recipe (String × Order) :=
  let property := v.field "PROPERTY"
  if property == "PRIME" then .fail .primality
  else do
    let compared := property == "POSITIVE" || property == "NEGATIVE"
    let x ← operand "NUMBER_TO_CHECK" (if compared then .comparison else .loose) "0"
    match property with
    | "EVEN" => return ("0 = modulo " ++ x ++ " 2", .comparison)
    | "ODD" => return ("1 = modulo " ++ x ++ " 2", .comparison)
    | "WHOLE" => return ("0 = modulo " ++ x ++ " 1", .comparison)
    | "POSITIVE" => return (x ++ " > 0", .comparison)
    | "NEGATIVE" => return (x ++ " < 0", .comparison)
    | "DIVISIBLE_BY" =>
      let y ← operand "DIVISOR" .loose "0"
      return ("0 = modulo " ++ x ++ " " ++ y, .comparison)
    | _ => v.unsupported "PROPERTY"

/-- The remainder of a division. -/
def modulo (_ : View) : Recipe (String × Order) := binary "modulo" "DIVIDEND" "DIVISOR"

/-- A random whole number between two bounds; `random n` yields one below `n`. -/
def randomInteger (_ : View) : Recipe (String × Order) := do
  let low ← operand "FROM" .subtraction "0"
  let high ← operand "TO" .subtraction "0"
  return (low ++ " + random " ++ high ++ " - " ++ low ++ " + 1", .procedure)

/-- The angle of a point. -/
def angle (_ : View) : Recipe (String × Order) := do
  let x ← operand "X" .loose "0"
  let y ← operand "Y" .loose "0"
  return ("(arctan " ++ x ++ " " ++ y ++ ")", .atomic)

end Turtle.Emitter

import Turtle.Compile.Recipe

/-!
# Truth values

Comparisons, connectives and the choice between two values. Truth values are the words `true` and
`false`.
-/

namespace Turtle.Emitter

open Logo (Order)
open Recipe

/-- The word for truth. -/
def trueWord : String := "\"true"

/-- The word for falsity. -/
def falseWord : String := "\"false"

/-- The operator of a comparison. -/
def comparisonOperator? : String → Option String
  | "EQ" => some "="
  | "NEQ" => some "<>"
  | "LT" => some "<"
  | "LTE" => some "<="
  | "GT" => some ">"
  | "GTE" => some ">="
  | _ => none

/-- A comparison of two values. -/
def comparison (v : View) : Recipe (String × Order) :=
  match comparisonOperator? (v.field "OP") with
  | some operator => do
    let a ← operand "A" .comparison "0"
    let b ← operand "B" .comparison "0"
    return (a ++ " " ++ operator ++ " " ++ b, .comparison)
  | none => v.unsupported "OP"

/-- A connective. An operand that is not connected has no effect on the result. -/
def connective (v : View) : Recipe (String × Order) := do
  let conjunction := v.field "OP" == "AND"
  let neutral := if conjunction then trueWord else falseWord
  let a ← operand "A" .loose neutral
  let b ← operand "B" .loose neutral
  return ((if conjunction then "and " else "or ") ++ a ++ " " ++ b, .procedure)

/-- The opposite of a truth value. -/
def negation (_ : View) : Recipe (String × Order) := do
  let x ← operand "BOOL" .loose trueWord
  return ("not " ++ x, .procedure)

/-- A truth value by itself. -/
def truthValue (v : View) : Recipe (String × Order) :=
  return (if v.field "BOOL" == "TRUE" then trueWord else falseWord, .atomic)

/-- The empty list, which stands for no value too. -/
def emptyList (_ : View) : Recipe (String × Order) := return ("[]", .atomic)

/-- The choice between two values. -/
def choice (_ : View) : Recipe (String × Order) := do
  let condition ← operand "IF" .loose falseWord
  let yes ← operand "THEN" .loose "[]"
  let no ← operand "ELSE" .loose "[]"
  return ("ifelse " ++ condition ++ " [" ++ yes ++ "] [" ++ no ++ "]", .procedure)

end Turtle.Emitter

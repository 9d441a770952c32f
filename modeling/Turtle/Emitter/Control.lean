import Turtle.Emitter.Truth
import Turtle.Number.Reader

/-!
# Branching and loops
-/

namespace Turtle.Emitter

open Recipe

/-- The body of a loop with the snippets of the block. -/
def loopBody (v : View) : Recipe String := do
  return v.options.loopBody v.manual v.head.id (← body "DO")

/-- Two branches. The statement places its snippets itself: the one before it first, and the one
after it at the top of each branch. -/
def branch (v : View) : Recipe String := do
  let condition ← operand "IF0" .loose falseWord
  let yes ← body "DO0"
  let no ← body "ELSE"
  let after := v.options.indented (v.options.afterOf v.head.id)
  let before := (v.options.beforeOf v.head.id).getD ""
  return before ++ "ifelse " ++ condition ++ " [\n" ++ after ++ yes ++ "] [\n" ++ after ++ no ++
    "]\n"

/-- A loop whose count is in a field or, without one, connected. -/
def repetition (v : View) : Recipe String := do
  let times ← if v.head.hasField "TIMES" then
      pure (Number.write (Number.read (v.field "TIMES")))
    else operand "TIMES" .loose "0"
  let body ← loopBody v
  return "repeat " ++ times ++ " [\n" ++ body ++ "]\n"

/-- A loop with a condition, which Logo evaluates in every round. -/
def conditionLoop (v : View) : Recipe String := do
  let keyword := if v.field "MODE" == "UNTIL" then "until" else "while"
  let condition ← operand "BOOL" .loose falseWord
  let body ← loopBody v
  return keyword ++ " [" ++ condition ++ "] [\n" ++ body ++ "]\n"

/-- A loop over numbers. -/
def countingLoop (v : View) : Recipe String := do
  let name ← variableName (v.field "VAR")
  let first ← operand "FROM" .loose "0"
  let last ← operand "TO" .loose "0"
  let step ← operand "BY" .loose "1"
  let body ← loopBody v
  return "for [" ++ name ++ " [" ++ first ++ "] [" ++ last ++ "] [" ++ step ++ "]] [\n" ++ body ++
    "]\n"

/-- A loop over the elements of a list. Logo calls the element `?`. -/
def elementLoop (v : View) : Recipe String := do
  let name ← variableName (v.field "VAR")
  let list ← operand "LIST" .loose "[]"
  let body ← loopBody v
  return "foreach " ++ list ++ " [\n" ++ v.options.indent ++ "make \"" ++ name ++ " ?\n" ++ body ++
    "]\n"

end Turtle.Emitter

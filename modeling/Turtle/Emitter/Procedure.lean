import Turtle.Emitter.Truth

/-!
# Procedures

A definition is hoisted: it leaves no code where its block stands. A procedure that returns a value
has the snippet after it repeated before it returns, as nothing after `op` is run.
-/

namespace Turtle.Emitter

open Logo (Order)
open Recipe

/-- Define a procedure, with or without a value to return. -/
def definitionOf (v : View) : Recipe Unit := do
  let o := v.options
  let name ← procedureName (v.field "NAME")
  let snippets := (o.beforeOf v.head.id).getD "" ++ (o.afterOf v.head.id).getD ""
  let opening := if snippets == "" then "" else prefixLines o.indent snippets
  let trap := o.indented (o.trapOf v.head.id)
  let statements ← body "STACK"
  let result ← answer (.value "RETURN" .loose)
  let closing := if statements != "" && result != "" then opening else ""
  let output := if result == "" then "" else o.indent ++ "op " ++ result ++ "\n"
  let params ← v.head.mutation.params.mapM fun param ↦ do return " :" ++ (← variableName param)
  hoist name
    ("to " ++ name ++ String.join params ++ "\n" ++ opening ++ trap ++ statements ++ closing ++
      output ++ "end")
    (done ())

/-- The name of the procedure that a block calls. -/
def callee (v : View) : String := v.head.mutation.callee.getD (v.field "NAME")

/-- A call with its arguments; one that is not connected is the empty list. -/
def callText (v : View) : Recipe String := do
  let name ← procedureName (callee v)
  let arguments ← (List.range v.head.mutation.params.length).mapM fun i ↦ do
    return " " ++ (← operand ("ARG" ++ toString i) .loose "[]")
  return name ++ String.join arguments

/-- A call whose result is used. -/
def call (v : View) : Recipe (String × Order) := do return (← callText v, .procedure)

/-- A call for its effect. -/
def callStatement (v : View) : Recipe String := do return (← callText v) ++ "\n"

/-- Leave the procedure on a condition. -/
def conditionalReturn (v : View) : Recipe String := do
  let o := v.options
  let condition ← operand "CONDITION" .loose falseWord
  let exit ← if v.head.mutation.hasReturnValue.getD true then
      (fun value ↦ "op " ++ value) <$> operand "VALUE" .loose "[]"
    else pure "stop"
  let after := o.indented (o.afterOf v.head.id)
  return "if " ++ condition ++ " [\n" ++ after ++ o.indent ++ exit ++ "\n]\n"

end Turtle.Emitter

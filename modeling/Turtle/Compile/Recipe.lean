import Turtle.Block
import Turtle.Compile.Error
import Turtle.Compile.Options
import Turtle.Logo.Order

/-!
# Recipes

An emitter says how one kind of block is written in Logo. It sees the block by itself; the code of
connected blocks and the identifiers of names it has to ask for. So an emitter yields a *recipe*: a
finished result, an error, or a request with a recipe for every answer.
-/

namespace Turtle

open Logo (Order)

/-- What an emitter may ask for. Every answer is a text. -/
inductive Request where
  /-- The expression connected to an input, in parentheses if it binds less than `outer`. Empty when
  nothing is connected. -/
  | value (input : String) (outer : Order)
  /-- The indented statements connected to an input. -/
  | body (input : String)
  /-- The identifier of a variable. -/
  | variable (nameOrId : String)
  /-- The identifier of a procedure. -/
  | procedure (name : String)
  /-- The name of a helper procedure with these lines. -/
  | helper (key : String) (lines : List String)
deriving DecidableEq, Repr

/-- A computation of an emitter. -/
inductive Recipe (α : Type) where
  | done (result : α)
  | fail (error : CompileError)
  | ask (request : Request) (next : String → Recipe α)
  /-- Register `code`, with the comments of the block and the statements after it, as the definition
  of a procedure. -/
  | hoist (name code : String) (next : Recipe α)

namespace Recipe

/-- Go on with the result. -/
def bind {α β : Type} : Recipe α → (α → Recipe β) → Recipe β
  | done a, f => f a
  | fail e, _ => fail e
  | ask q next, f => ask q fun answer ↦ (next answer).bind f
  | hoist name code next, f => hoist name code (next.bind f)

instance : Monad Recipe where
  pure := done
  bind := bind

/-- The text that answers a request. -/
def answer (q : Request) : Recipe String := ask q done

/-- The expression connected to an input, or a default. -/
def operand (input : String) (outer : Order) (default : String) : Recipe String := do
  let code ← answer (.value input outer)
  return if code == "" then default else code

/-- The indented statements connected to an input. -/
def body (input : String) : Recipe String := answer (.body input)

/-- The identifier of a variable. -/
def variableName (nameOrId : String) : Recipe String := answer (.variable nameOrId)

/-- The identifier of a procedure. -/
def procedureName (name : String) : Recipe String := answer (.procedure name)

/-- The name of a helper procedure. -/
def helper (key : String) (lines : List String) : Recipe String := answer (.helper key lines)

end Recipe

/-- What an emitter sees. -/
structure View where
  options : Options
  /-- The kind of block places its snippets itself. -/
  manual : Bool
  head : Head
  inputNames : List String

/-- What an emitter writes. -/
inductive Emission where
  | statement (code : String)
  | value (code : String) (order : Order)
  /-- Everything was registered as a definition. -/
  | hoisted
deriving DecidableEq, Repr

/-- How a kind of block is written. -/
structure Emitter where
  shape : Shape
  /-- The emitter places the snippets before and after the statement itself. -/
  manual : Bool := false
  emit : View → Recipe Emission

namespace Emitter

/-- A kind of statement. -/
def statement (emit : View → Recipe String) : Emitter where
  shape := .statement
  emit v := do return .statement (← emit v)

/-- A kind of expression. -/
def value (emit : View → Recipe (String × Order)) : Emitter where
  shape := .value
  emit v := do
    let (code, order) ← emit v
    return .value code order

/-- A kind of statement that leaves a definition and no code. -/
def definition (emit : View → Recipe Unit) : Emitter where
  shape := .statement
  emit v := do
    emit v
    return .hoisted

end Emitter

namespace View

/-- The text of a field. -/
def field (v : View) (name : String) : String := v.head.field name

/-- The error for a choice that the kind of block does not offer. -/
def unsupported {α : Type} (v : View) (field : String) : Recipe α :=
  .fail (.unsupportedOption v.head.kind field (v.field field))

end View

end Turtle

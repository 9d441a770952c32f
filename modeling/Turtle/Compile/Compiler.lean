import Turtle.Compile.Comment
import Turtle.Compile.Pass
import Turtle.Emitter.Standard
import Turtle.Text.Tidy
import Turtle.Workspace

/-!
# Compiling blocks

A block is written as its emitter says, every request of the recipe being answered from the blocks
connected to it. A disabled block is passed over. The program of a workspace consists of the
definitions that the pass has collected and of the code of the top blocks in reading order.
-/

namespace Turtle

open Logo (Order)

/-- The code of a block. -/
inductive Code where
  | statement (code : String)
  | value (code : String) (order : Order)
deriving DecidableEq, Repr

/-- What decides how blocks are written. -/
structure Compiler where
  options : Options := {}
  /-- The emitter of each kind of block. -/
  emitter? : String → Option Emitter := Emitter.standard?

/-- How the requests of an emitter about the neighbours of its block are answered. -/
structure Neighbours where
  /-- The expression connected to an input. -/
  value : String → Order → PassM String
  /-- The statements connected to an input. -/
  statements : String → PassM String
  /-- Code with the comments of the block and the statements after it. -/
  finish : String → PassM String

namespace Recipe

/-- Answer a request. -/
def respond (indent : String) (n : Neighbours) : Request → PassM String
  | .value input outer => n.value input outer
  | .body input => do
    let code ← n.statements input
    return if code == "" then "" else prefixLines indent code
  | .variable nameOrId => modifyGet (·.name .variable nameOrId)
  | .procedure name => modifyGet (·.name .procedure name)
  | .helper key lines => modifyGet (·.helper indent key lines)

/-- Follow a recipe. -/
def run {α : Type} (indent : String) (n : Neighbours) : Recipe α → PassM α
  | done a => return a
  | fail e => throw e
  | ask q next => do (next (← respond indent n q)).run indent n
  | hoist name code next => do
    let whole ← n.finish code
    modify (·.define name whole)
    next.run indent n

end Recipe

namespace Compiler

/-- The code of a value in a place that demands an order. A block that leaves no code counts as not
connected. -/
def plug (kind : String) (outer : Order) : Code → PassM String
  | .value code inner =>
    return if code != "" && Logo.needsParens outer inner then "(" ++ code ++ ")" else code
  | .statement code => if code == "" then return "" else throw (.expectedValue kind)

/-- The code of a statement. -/
def link (kind : String) : Code → PassM String
  | .statement code => return code
  | .value _ _ => throw (.expectedStatement kind)

/-- What the emitter of a block sees. -/
def view (c : Compiler) (e : Emitter) (b : Block) : View where
  options := c.options
  manual := e.manual
  head := b.head
  inputNames := b.inputs.map (·.name)

/-- The code of what an emitter has written, with its snippets and what `finish` adds. -/
def settle (c : Compiler) (e : Emitter) (head : Head) (finish : String → PassM String) :
    Emission → PassM Code
  | .value code order =>
    if e.shape = .value then return .value (← finish code) order
    else throw (.expectedStatement head.kind)
  | .statement code =>
    return .statement (← finish (if e.manual then code else c.options.surround head.id code))
  | .hoisted => return .statement ""

/-- Code with the comments of its block, unless it is plugged into a value input, and with what
follows the block, unless it is taken alone. -/
def finishWith (c : Compiler) (b : Block) (following : PassM String) (alone plugged : Bool)
    (code : String) : PassM String := do
  let rest ← if alone then pure "" else following
  return (if plugged then "" else b.comments c.options.commentWidth) ++ code ++ rest

/-- The code of a block and of the statements after it. -/
def block (c : Compiler) (b : Block) (alone plugged : Bool) : PassM Code :=
  if b.head.enabled then
    let following : PassM String :=
      match _h : b.next with
      | none => pure ""
      | some next => c.block next false false >>= link next.head.kind
    let neighbours : Neighbours := {
      value := fun input outer ↦
        match _h : b.target? input with
        | none => pure ""
        | some t => c.block t false true >>= plug t.head.kind outer
      statements := fun input ↦
        match _h : b.target? input with
        | none => pure ""
        | some t => c.block t false false >>= link t.head.kind
      finish := c.finishWith b following false false }
    match c.emitter? b.head.kind with
    | none => throw (.unknownKind b.head.kind)
    | some e =>
      (e.emit (c.view e b)).run c.options.indent neighbours >>=
        c.settle e b.head (c.finishWith b following alone plugged)
  else if alone then pure (.statement "")
  else match _h : b.next with
    | none => pure (.statement "")
    | some next => c.block next false plugged
termination_by sizeOf b
decreasing_by
  · exact Block.sizeOf_next _h
  · exact Block.sizeOf_target _h
  · exact Block.sizeOf_target _h
  · exact Block.sizeOf_next _h

/-- The expression connected to an input. -/
def value (c : Compiler) (b : Block) (input : String) (outer : Order) : PassM String :=
  match b.target? input with
  | none => pure ""
  | some t => c.block t false true >>= plug t.head.kind outer

/-- The statements from a block on. -/
def chain (c : Compiler) : Option Block → PassM String
  | none => pure ""
  | some b => c.block b false false >>= link b.head.kind

/-- Code with the comments of its block and the statements after it. -/
def finish (c : Compiler) (b : Block) (alone plugged : Bool) (code : String) : PassM String :=
  c.finishWith b (c.chain b.next) alone plugged code

/-- The answers to the requests of the emitter of a block. -/
def neighbours (c : Compiler) (b : Block) : Neighbours where
  value := c.value b
  statements input := c.chain (b.target? input)
  finish := c.finish b false false

/-- The indented statements connected to an input. -/
def body (c : Compiler) (b : Block) (input : String) : PassM String :=
  Recipe.respond c.options.indent (c.neighbours b) (.body input)

/-- An enabled block is compiled by the recipe of its emitter, and a disabled one gives way to the
next block. -/
theorem block_eq (c : Compiler) (b : Block) (alone plugged : Bool) :
    c.block b alone plugged =
      if b.head.enabled then
        match c.emitter? b.head.kind with
        | none => throw (.unknownKind b.head.kind)
        | some e =>
          (e.emit (c.view e b)).run c.options.indent (c.neighbours b) >>=
            c.settle e b.head (c.finish b alone plugged)
      else if alone then pure (.statement "")
      else match b.next with
        | none => pure (.statement "")
        | some next => c.block next false plugged := by
  have hnext : (match _h : b.next with
      | none => pure ""
      | some next => c.block next false false >>= link next.head.kind) = c.chain b.next := by
    cases b.next <;> rfl
  have hvalue : (fun input outer ↦ match _h : b.target? input with
      | none => pure ""
      | some t => c.block t false true >>= plug t.head.kind outer) = c.value b := by
    funext input outer
    simp only [value]
    cases b.target? input <;> rfl
  have hchain : (fun input ↦ match _h : b.target? input with
      | none => pure ""
      | some t => c.block t false false >>= link t.head.kind) =
        fun input ↦ c.chain (b.target? input) := by
    funext input
    cases b.target? input <;> rfl
  rw [block]
  simp only [hnext, hvalue, hchain]
  split
  · rfl
  · split
    · rfl
    · cases b.next <;> rfl

end Compiler

end Turtle

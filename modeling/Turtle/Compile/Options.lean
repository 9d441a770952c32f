import Turtle.Text.Lines
import Turtle.Text.Replace

/-!
# Compiler options

Besides layout, a host may have snippets of Logo put around statements and into loops, to follow or
to stop a running program. `%1` in a snippet stands for the quoted id of the block.
-/

namespace Turtle

/-- What a host decides about the program. -/
structure Options where
  /-- Positions in lists and texts count from one in the workspace, as they do in Logo. -/
  oneBased : Bool := true
  /-- Put before each statement. -/
  before : Option String := none
  /-- Put after each statement. -/
  after : Option String := none
  /-- Put at the top of each loop and procedure. -/
  trap : Option String := none
  /-- One step of indentation. -/
  indent : String := "  "
  /-- The width of comments, their mark included. -/
  commentWidth : Nat := 60
deriving DecidableEq, Repr

namespace Options

/-- A snippet for the block with an id. -/
def instantiate (snippet id : String) : String := replace "%1" ("'" ++ id ++ "'") snippet

/-- The snippet before the statement of the block with an id. -/
def beforeOf (o : Options) (id : String) : Option String := o.before.map (instantiate · id)

/-- The snippet after the statement of the block with an id. -/
def afterOf (o : Options) (id : String) : Option String := o.after.map (instantiate · id)

/-- The snippet in the loop of the block with an id. -/
def trapOf (o : Options) (id : String) : Option String := o.trap.map (instantiate · id)

/-- A snippet as lines of a body, and nothing for no snippet. -/
def indented (o : Options) (snippet : Option String) : String :=
  match snippet with
  | some s => prefixLines o.indent s
  | none => ""

/-- A statement between its snippets. -/
def surround (o : Options) (id code : String) : String :=
  (o.beforeOf id).getD "" ++ code ++ (o.afterOf id).getD ""

/-- The body of a loop with its snippets: the one after the loop statement comes first and the one
before it last, so that both are seen in every round. A kind of block that places its snippets
itself gets the trap only. -/
def loopBody (o : Options) (manual : Bool) (id body : String) : String :=
  let trapped := o.indented (o.trapOf id) ++ body
  if manual then trapped
  else o.indented (o.afterOf id) ++ trapped ++ o.indented (o.beforeOf id)

end Options

end Turtle

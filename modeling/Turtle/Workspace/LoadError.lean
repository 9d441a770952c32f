/-!
# Errors of loading

A saved workspace that cannot be read is refused with the place of the first bad node: the steps
from the document to it, the outermost first.
-/

namespace Turtle

/-- A step from a node to one within it. -/
inductive LoadStep where
  | topBlock (index : Nat)
  /-- To what is connected to an input of the block with an id. -/
  | input (name id : String)
  /-- To what follows the block with an id. -/
  | next (id : String)
  /-- To the mutation of the block with an id, written as XML. -/
  | mutation (id : String)
deriving DecidableEq, Repr

/-- What is wrong with a node. -/
inductive LoadFault where
  | malformedJson
  | trailingJson
  | rootNotObject
  | badVariables
  | blocksNotArray
  | blockNotObject
  | missingType
  /-- The extra state of the block with an id is an object, but not a readable one. -/
  | badState (id : String)
  /-- The extra state of the block with an id is neither an object nor a text. -/
  | unexpectedState (json id : String)
  | malformedXml
  | malformedMutation
deriving DecidableEq, Repr

/-- The first bad node, and the way to it. -/
structure LoadError where
  path : List LoadStep := []
  fault : LoadFault
deriving DecidableEq, Repr

/-- A step in words. -/
def LoadStep.message : LoadStep → String
  | .topBlock index => "Invalid top block #" ++ toString index ++ "."
  | .input name id => "Invalid input '" ++ name ++ "' of block '" ++ id ++ "'."
  | .next id => "Invalid next block of '" ++ id ++ "'."
  | .mutation id => "Invalid mutation on block '" ++ id ++ "'."

/-- A fault in words. -/
def LoadFault.message : LoadFault → String
  | .malformedJson => "Invalid workspace JSON."
  | .trailingJson => "Trailing characters after workspace JSON."
  | .rootNotObject => "Workspace JSON must be an object."
  | .badVariables => "Invalid 'variables' array."
  | .blocksNotArray => "'blocks.blocks' must be an array."
  | .blockNotObject => "Block entry is not an object."
  | .missingType => "Block missing 'type'."
  | .badState id => "Invalid extraState on block '" ++ id ++ "'."
  | .unexpectedState json id => "Unexpected extraState " ++ json ++ " on block '" ++ id ++ "'."
  | .malformedXml => "Invalid workspace XML"
  | .malformedMutation => "Invalid mutation XML"

/-- An error in words, from the outermost step to the fault. -/
def LoadError.messages (e : LoadError) : List String :=
  e.path.map LoadStep.message ++ [e.fault.message]

/-- Results of loading. -/
abbrev LoadM := Except LoadError

namespace LoadM

/-- A fault in the node at hand. -/
def fail {α : Type} (fault : LoadFault) : LoadM α := .error { fault }

/-- What is there, or a fault. -/
def require {α : Type} (fault : LoadFault) : Option α → LoadM α
  | some a => .ok a
  | none => fail fault

/-- A node that is read within another one, a step away. -/
def within {α : Type} (step : LoadStep) : LoadM α → LoadM α
  | .ok a => .ok a
  | .error e => .error { e with path := step :: e.path }

end LoadM

end Turtle

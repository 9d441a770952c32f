/-!
# What a program cannot be compiled for

Nothing catches an error on the way, nor a panic, so one type has both.
-/

namespace Turtle

/-- The reason why a pass ends without a program. -/
inductive CompileError where
  /-- No emitter is registered for the kind of a block. -/
  | unknownKind (kind : String)
  /-- A field holds a choice that its kind of block does not offer. -/
  | unsupportedOption (kind field choice : String)
  /-- Logo has no expression for a mode of access at a location. -/
  | unhandledAccess (kind mode location : String)
  /-- Logo has no test for prime numbers. -/
  | primality
  /-- A statement stands where a value is expected. -/
  | expectedValue (kind : String)
  /-- A value stands where a statement is expected. -/
  | expectedStatement (kind : String)
  /-- A colour is not of the form `#rrggbb`. -/
  | invalidColour (colour : String)
  /-- Room is asked for that is more than can be addressed. This is a panic: there is no answer, and
  nothing is seen of a session that it ends. -/
  | capacityOverflow
deriving DecidableEq, Repr

/-- The error in words. -/
def CompileError.message : CompileError → String
  | .unknownKind kind =>
    "Logo generator does not know how to generate code for block type \"" ++ kind ++ "\"."
  | .unsupportedOption kind field choice =>
    "Unknown " ++ field ++ " option '" ++ choice ++ "' on block type \"" ++ kind ++ "\"."
  | .unhandledAccess kind mode location =>
    "Unhandled combination (" ++ kind ++ "): MODE " ++ mode ++ " with WHERE " ++ location ++ "."
  | .primality => "Primality testing isn't supported yet"
  | .expectedValue kind => "Expecting tuple from value block: " ++ kind
  | .expectedStatement kind => "Expecting string from statement block: " ++ kind
  | .invalidColour colour => "Invalid colour '" ++ colour ++ "': expected #rrggbb."
  | .capacityOverflow => "capacity overflow"

end Turtle

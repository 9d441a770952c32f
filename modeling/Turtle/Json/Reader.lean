import Turtle.Json.Token
import Turtle.Table

/-!
# Reading documents

The tokens of a text run through an automaton with a stack of the arrays and objects that are open.
So values may be nested to any depth.
-/

namespace Turtle.Json

/-- Why a text is not a document. -/
inductive ReadError where
  /-- No value can be read. -/
  | invalid
  /-- Something follows the value. -/
  | trailing
deriving DecidableEq, Repr

/-- An array or object that is open. -/
inductive Frame where
  /-- An array with the items so far, the last one first. -/
  | array (items : List Json)
  /-- An object with the members so far, which goes on with a value for a key. -/
  | object (members : List (String × Json)) (key : String)

/-- What may come next, with the frames that are open around it, the innermost first. -/
inductive State where
  | value (outer : List Frame)
  /-- A first item, or the end of an empty array. -/
  | firstItem (outer : List Frame)
  /-- A first key, or the end of an empty object. -/
  | firstKey (outer : List Frame)
  | nextKey (members : List (String × Json)) (outer : List Frame)
  | colon (members : List (String × Json)) (key : String) (outer : List Frame)
  /-- A comma, or the end of an array. -/
  | moreItems (items : List Json) (outer : List Frame)
  /-- A comma, or the end of an object. -/
  | moreMembers (members : List (String × Json)) (outer : List Frame)
  /-- Nothing but the end of the text. -/
  | done (root : Json)

namespace State

/-- A value is complete. A repeated key keeps its place and takes the new value. -/
def close (j : Json) : List Frame → State
  | [] => done j
  | .array items :: outer => moreItems (j :: items) outer
  | .object members key :: outer => moreMembers (Table.put key j members) outer

/-- A token begins a value. -/
def enter (outer : List Frame) : Token → Except ReadError State
  | .text s => .ok (close (.text s) outer)
  | .scalar j => .ok (close j outer)
  | .openArray => .ok (firstItem outer)
  | .openObject => .ok (firstKey outer)
  | _ => .error .invalid

/-- Take a token. -/
def step : State → Token → Except ReadError State
  | value outer, t => enter outer t
  | firstItem outer, .closeArray => .ok (close (.array []) outer)
  | firstItem outer, t => enter (.array [] :: outer) t
  | firstKey outer, .closeObject => .ok (close (.object []) outer)
  | firstKey outer, .text key => .ok (colon [] key outer)
  | nextKey members outer, .text key => .ok (colon members key outer)
  | colon members key outer, .colon => .ok (value (.object members key :: outer))
  | moreItems items outer, .comma => .ok (value (.array items :: outer))
  | moreItems items outer, .closeArray => .ok (close (.array items.reverse) outer)
  | moreMembers members outer, .comma => .ok (nextKey members outer)
  | moreMembers members outer, .closeObject => .ok (close (.object members) outer)
  | done _, _ => .error .trailing
  | _, _ => .error .invalid

/-- The value, if the text ends here. -/
def result : State → Except ReadError Json
  | done root => .ok root
  | _ => .error .invalid

end State

/-- The value of a sequence of tokens. -/
def ofTokens (tokens : List Token) : Except ReadError Json := do
  (← tokens.foldlM State.step (.value [])).result

/-- Read a document. -/
def read (s : String) : Except ReadError Json := ofTokens (tokens s.toList)

end Turtle.Json

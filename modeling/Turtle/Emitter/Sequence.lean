import Turtle.Compile.Index
import Turtle.Compile.Pass
import Turtle.Emitter.Truth
import Turtle.Logo.Word

/-!
# Lists and texts

A Logo text is a word, and Logo treats words and lists alike: both are put together from elements,
counted and indexed by the same primitives.
-/

namespace Turtle.Emitter

open Logo (Order)
open Recipe

/-- The empty word, a quote mark with nothing behind it. -/
def emptyWord : String := "\""

/-- A primitive with one input. -/
def unary (primitive input default : String) (_ : View) : Recipe (String × Order) := do
  return (primitive ++ " " ++ (← operand input .loose default), .procedure)

/-! ## Putting elements together -/

/-- The number of elements: as recorded, or else as many as there are inputs for elements. -/
def itemCount (v : View) : Nat :=
  v.head.mutation.itemCount.getD
    (v.inputNames.countP fun name ↦ "ADD".toList.isPrefixOf name.toList)

/-- The most texts that room can be asked for: each takes 24 bytes, and `2 ^ 63 - 1` bytes is the
most that there may be of anything. Room that can be asked for is taken to be given. -/
def textLimit : Nat := (Nat.pow 2 63 - 1) / 24

/-- The most elements that room can be asked for. An input takes more room than a text, so there is
always enough for as many elements as the block has inputs. -/
def capacity (v : View) : Nat := max textLimit v.inputNames.length

/-- There is too little room only for a number of elements that is recorded. -/
theorem capacity_lt_itemCount_iff {v : View} :
    capacity v < itemCount v ↔ ∃ count, v.head.mutation.itemCount = some count ∧
      capacity v < count := by
  unfold itemCount
  cases v.head.mutation.itemCount with
  | none =>
    have hfits : v.inputNames.countP (fun name ↦ "ADD".toList.isPrefixOf name.toList) ≤ capacity v :=
      Nat.le_trans List.countP_le_length (Nat.le_max_right ..)
    constructor
    · intro h
      exact absurd hfits (Nat.not_le.2 h)
    · intro ⟨_, h, _⟩
      cases h
  | some count => simp

/-- Elements put together by a primitive of two inputs, which takes another number of them when it
is in parentheses. The room for these is asked for before any of them is compiled. -/
def gather (primitive empty : String) (v : View) : Recipe (String × Order) :=
  match itemCount v with
  | 0 => return (empty, .atomic)
  | 2 => do
    let first ← operand "ADD0" .atomic empty
    let second ← operand "ADD1" .loose empty
    return (primitive ++ " " ++ first ++ " " ++ second, .procedure)
  | count =>
    if capacity v < count then fail .capacityOverflow
    else do
      let elements ← (List.range count).mapM fun i ↦ operand ("ADD" ++ toString i) .loose empty
      return ("(" ++ primitive ++ " " ++ " ".intercalate elements ++ ")", .atomic)

/-! ## Literals -/

/-- A text as a quoted word. -/
def text (v : View) : Recipe (String × Order) := return (Logo.quote (v.field "TEXT"), .atomic)

/-- A text of several lines, in parentheses if there is more than one. -/
def multilineText (v : View) : Recipe (String × Order) :=
  let code := Logo.quoteLines (v.field "TEXT")
  return (if code.toList.contains '\n' then "(" ++ code ++ ")" else code, .atomic)

/-! ## Elements by position -/

/-- Where an element is looked for; nothing chosen means from the start. -/
def location (v : View) : String := if v.field "WHERE" == "" then "FROM_START" else v.field "WHERE"

/-- How an element is accessed; nothing chosen means reading it. -/
def mode (v : View) : String := if v.field "MODE" == "" then "GET" else v.field "MODE"

/-- An element of a list. Lists can only be read, and not from their end. -/
def listElement (v : View) : Recipe (String × Order) := do
  let list ← operand "VALUE" .loose "[]"
  match mode v, location v with
  | "GET", "FIRST" => return ("first " ++ list, .procedure)
  | "GET", "LAST" => return ("last " ++ list, .procedure)
  | "GET", "FROM_START" =>
    let position ← adjustedIndex v "AT" 0 false .loose
    return ("item " ++ position ++ " " ++ list, .procedure)
  | "GET", "RANDOM" => return ("pick " ++ list, .procedure)
  | mode, location => fail (.unhandledAccess v.head.kind mode location)

/-- The helper that takes a letter by a negative position. -/
def letterFromEnd : List String :=
  ["to " ++ Pass.namePlaceholder ++ " :w :a", "op item :a + count :w :w", "end"]

/-- A letter of a text. -/
def letter (v : View) : Recipe (String × Order) := do
  let fromEnd := location v == "FROM_END"
  let text ← operand "VALUE" (if fromEnd then .subtraction else .loose) emptyWord
  match location v with
  | "FIRST" => return ("first " ++ text, .procedure)
  | "LAST" => return ("last " ++ text, .procedure)
  | "FROM_START" =>
    let position ← adjustedIndex v "AT" 0 false .loose
    return ("item " ++ position ++ " " ++ text, .procedure)
  | "FROM_END" =>
    let position ← adjustedIndex v "AT" (-1) true .loose
    let name ← helper "wordLetterFromEnd" letterFromEnd
    return (name ++ " " ++ text ++ " " ++ position, .procedure)
  | "RANDOM" => return ("pick " ++ text, .procedure)
  | _ => v.unsupported "WHERE"

/-! ## Whole lists -/

/-- The helper that repeats a value. -/
def repeatValue : List String :=
  ["to " ++ Pass.namePlaceholder ++ " :value :n", "  op cascade :n [lput :value ?] []", "end"]

/-- A list of one element repeated. -/
def repeated (_ : View) : Recipe (String × Order) := do
  let name ← helper "listsRepeat" repeatValue
  let element ← operand "ITEM" .loose "[]"
  let count ← operand "NUM" .loose "0"
  return (name ++ " " ++ element ++ " " ++ count, .procedure)

/-- The helper that searches a list, from its end if so asked. -/
def searchList : List String := [
  "to " ++ Pass.namePlaceholder ++ " :item :l :reverse",
  "  ifelse :reverse [",
  "    localmake \"res find [? = :item] reverse :l",
  "    op ifelse listp :res 0 1 - :res + count :l",
  "  ][",
  "    localmake \"res find [? = :item] :l",
  "    op ifelse listp :res 0 :res",
  "  ]",
  "end"]

/-- The position of an element in a list, zero if there is none. -/
def position (v : View) : Recipe (String × Order) := do
  let reverse := if v.field "END" == "FIRST" then falseWord else trueWord
  let element ← operand "FIND" .loose emptyWord
  let list ← operand "VALUE" .loose "[]"
  let name ← helper "listsIndexOf" searchList
  let code := name ++ " " ++ element ++ " " ++ list ++ " " ++ reverse
  return (if v.options.oneBased then code else "-1 + " ++ code, .procedure)

/-- The helper that sorts a list by a comparison, with or without regard to case. -/
def sortList : List String := [
  "to " ++ Pass.namePlaceholder ++ " :l :cmp :ci",
  "  localmake \"cip ifelse definedp \"caseignoredp [:caseignoredp] \"\"true",
  "  make \"caseignoredp :ci",
  "  localmake \"res (sort :l :cmp)",
  "  make \"caseignoredp :cip",
  "  op :res",
  "end"]

/-- What a list is sorted by. -/
def sortComparison (ascending numeric : Bool) : String :=
  match ascending, numeric with
  | true, true => "\"lessp"
  | true, false => "\"beforep"
  | false, true => "\"greaterp"
  | false, false => "[beforep ?2 ?1]"

/-- A list, sorted. -/
def sorted (v : View) : Recipe (String × Order) := do
  let list ← operand "LIST" .loose "[]"
  let comparison := sortComparison (v.field "DIRECTION" == "1") (v.field "TYPE" == "NUMERIC")
  let ignoreCase := if v.field "TYPE" == "TEXT" then falseWord else trueWord
  let name ← helper "listsGetSort" sortList
  return (name ++ " " ++ list ++ " " ++ comparison ++ " " ++ ignoreCase, .procedure)

/-! ## Whole texts -/

/-- The helper that capitalises the words of a text. -/
def titleCase : List String := [
  "to " ++ Pass.namePlaceholder ++ " :w",
  "op map [ifelse #>1 [ifelse \"\\  = item #-1 :w [uppercase ?] [lowercase ?]][uppercase ?]] :w",
  "end"]

/-- A text in another case. The text is computed before a case that is not offered is refused. -/
def changedCase (v : View) : Recipe (String × Order) := do
  let text ← operand "TEXT" .loose emptyWord
  let operator ← match v.field "CASE" with
    | "UPPERCASE" => pure "uppercase"
    | "LOWERCASE" => pure "lowercase"
    | "TITLECASE" => helper "textToTitleCase" titleCase
    | _ => v.unsupported "CASE"
  return (operator ++ " " ++ text, .procedure)

/-! ## Talking to the user -/

/-- Print a value on a line of its own. -/
def print (_ : View) : Recipe String := do
  return "pr " ++ (← operand "TEXT" .loose emptyWord) ++ "\n"

/-- A word that the user is asked for; the question is in a field or, without one, connected. -/
def prompt (v : View) : Recipe (String × Order) := do
  let question ← if v.head.hasField "TEXT" then pure (Logo.quote (v.field "TEXT"))
    else operand "TEXT" .loose emptyWord
  return ("readword " ++ question ++ " " ++ question, .loose)

end Turtle.Emitter

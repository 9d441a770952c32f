import Turtle.Json.Token

/-!
# Writing documents

Documents are written without blanks. A text escapes its marks and the control characters, and keeps
all other characters as they are.
-/

namespace Turtle.Json

/-- Four hexadecimal digits of lower case. -/
def unitDigits (n : Nat) : List Char :=
  [n / 4096, n / 256, n / 16, n].map fun d ↦ (Text.hexDigit (d % 16)).toLower

/-- A character within a text. -/
def escape (c : Char) : List Char :=
  match shortEscapes.find? (·.2 == c) with
  | some (letter, _) => ['\\', letter]
  | none => if c < ' ' then '\\' :: 'u' :: unitDigits c.toNat else [c]

/-- A text between its marks. -/
def writeText (s : String) : String :=
  String.ofList ('"' :: s.toList.flatMap escape ++ ['"'])

/-- The text of a document. -/
def write : Json → String
  | null => "null"
  | bool b => if b then "true" else "false"
  | number n => n.write
  | text s => writeText s
  | array items => "[" ++ ",".intercalate (items.attach.map fun ⟨j, _⟩ ↦ j.write) ++ "]"
  | object members =>
    let written := members.attach.map fun ⟨(key, j), _⟩ ↦ writeText key ++ ":" ++ j.write
    "\x7b" ++ ",".intercalate written ++ "\x7d"
termination_by j => sizeOf j
decreasing_by
  · have := List.sizeOf_lt_of_mem ‹_ ∈ items›
    simp
    omega
  · have := sizeOf_of_mem ‹_ ∈ members›
    simp
    omega

end Turtle.Json

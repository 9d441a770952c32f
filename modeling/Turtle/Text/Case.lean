import Turtle.Text.Case.Table

/-!
# Lower case

The full Unicode mapping to lower case, with its two irregular letters: `İ` becomes two characters,
and `Σ` at the end of a word becomes `ς`.
-/

namespace Turtle.Text

/-- Whether a code point lies in one of some increasing ranges. -/
def inRanges (n : Nat) : List (Nat × Nat) → Bool
  | [] => false
  | (first, last) :: rest => if n < first then false else n ≤ last || inRanges n rest

/-- Whether case mappings look through a character. -/
def isCaseIgnorable (c : Char) : Bool := inRanges c.toNat caseIgnorableRanges

/-- Whether a character has a case and is not looked through. -/
def isCased (c : Char) : Bool := inRanges c.toNat casedRanges

/-- The lower case of a character that has one of its own. -/
def lowerIn (c : Char) : List LowerRun → Char
  | [] => c
  | run :: rest =>
    if c.toNat < run.first then c
    else if c.toNat ≤ run.last ∧ (c.toNat - run.first) % run.step = 0 then
      Char.ofNat (c.toNat + run.offset).toNat
    else lowerIn c rest

/-- The lower case of a character, irrespective of its place in a word. -/
def lowerChar (c : Char) : Char := if c.toNat < 128 then c.toLower else lowerIn c lowerRuns

/-- Whether the next character that counts has a case. -/
def meetsCased (s : List Char) : Bool :=
  ((s.dropWhile isCaseIgnorable).head?.map isCased).getD false

/-- Lower case of a text whose characters so far, last first, are `before`. -/
def lowerFrom (before : List Char) : List Char → List Char
  | [] => []
  | c :: s =>
    let rest := lowerFrom (c :: before) s
    if c = 'İ' then 'i' :: '\u0307' :: rest
    else if c = 'Σ' then (if meetsCased before && !meetsCased s then 'ς' else 'σ') :: rest
    else lowerChar c :: rest

/-- Lower case of a text. -/
def lower (s : List Char) : List Char := lowerFrom [] s

end Turtle.Text

namespace Turtle

/-- A text in lower case. -/
def lower (s : String) : String := String.ofList (Text.lower s.toList)

end Turtle

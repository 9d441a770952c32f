import Turtle.Text.Blank

/-!
# Tidying the white space of a program

Three passes: blanks that end in a newline are dropped from the front, blanks after a newline are
dropped from the end, and spaces and tabs are dropped before every newline.
-/

namespace Turtle.Text

/-- What follows the last newline of a text, or the whole text if it has none. -/
def afterLastNewline (s : List Char) : List Char :=
  (s.reverse.takeWhile (· != '\n')).reverse

/-- Drop the blank opening of a text up to its last newline, which must not come first. -/
def dropOpening : List Char → List Char
  | [] => []
  | c :: s =>
    let blank := s.takeWhile isBlank
    if isBlank c && blank.contains '\n' then
      afterLastNewline blank ++ s.dropWhile isBlank
    else c :: s

/-- Drop all blanks after the first newline of the blank ending of a text. -/
def dropEnding (s : List Char) : List Char :=
  let kept := (s.reverse.dropWhile isBlank).reverse
  let blank := (s.reverse.takeWhile isBlank).reverse
  kept ++ if blank.contains '\n' then blank.takeWhile (· != '\n') ++ ['\n'] else blank

/-- Spaces and tabs, the white space within a line. -/
def isGap (c : Char) : Bool := c == ' ' || c == '\t'

theorem isBlank_of_isGap {c : Char} (h : isGap c) : isBlank c := by
  rw [isGap, Bool.or_eq_true, beq_iff_eq, beq_iff_eq] at h
  rcases h with rfl | rfl <;> decide

/-- Drop the gap in front of every newline. -/
def dropLineEnds : List Char → List Char
  | [] => []
  | c :: s =>
    let rest := dropLineEnds s
    if isGap c && rest.head? == some '\n' then rest else c :: rest

/-- All three passes. -/
def tidy (s : List Char) : List Char := dropLineEnds (dropEnding (dropOpening s))

end Turtle.Text

namespace Turtle

/-- A program with its white space tidied. -/
def tidy (s : String) : String := String.ofList (Text.tidy s.toList)

end Turtle

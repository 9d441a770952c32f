import Turtle.Text.Blank
import Turtle.Text.Lines

/-!
# Greedy word wrap

A paragraph is refilled word by word: a word joins the line while the line stays within the limit,
and starts the next line otherwise. Newlines of the text separate paragraphs and are kept.
-/

namespace Turtle.Text

/-- The lines that `line` and the words after it fill. -/
def fillFrom (limit : Nat) (line : List Char) : List (List Char) → List (List Char)
  | [] => [line]
  | word :: rest =>
    if line.length + 1 + word.length ≤ limit then fillFrom limit (line ++ ' ' :: word) rest
    else line :: fillFrom limit word rest

/-- The lines that some words fill; no words fill one empty line. -/
def fill (limit : Nat) : List (List Char) → List (List Char)
  | [] => [[]]
  | word :: rest => fillFrom limit word rest

/-- A paragraph, refilled. -/
def wrapParagraph (limit : Nat) (s : List Char) : List Char :=
  joinLines (fill limit (words s))

/-- A text, refilled paragraph by paragraph. -/
def wrap (limit : Nat) (s : List Char) : List Char :=
  joinLines ((splitLines s).map (wrapParagraph limit))

end Turtle.Text

namespace Turtle

/-- `s` wrapped so that a line of more than `limit` characters is a single word. -/
def wrap (limit : Nat) (s : String) : String :=
  String.ofList (Text.wrap limit s.toList)

end Turtle

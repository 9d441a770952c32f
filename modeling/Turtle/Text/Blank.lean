/-!
# Blank characters

White space in the sense of Unicode, and the operations that look only at it: trimming a text and
splitting it into words.
-/

namespace Turtle.Text

/-- The Unicode property `White_Space`. -/
def isBlank (c : Char) : Bool :=
  let n := c.toNat
  (9 ≤ n && n ≤ 13) || n == 0x20 || n == 0x85 || n == 0xa0 || n == 0x1680 ||
  (0x2000 ≤ n && n ≤ 0x200a) || n == 0x2028 || n == 0x2029 || n == 0x202f || n == 0x205f ||
  n == 0x3000

@[simp] theorem isBlank_newline : isBlank '\n' = true := by decide

@[simp] theorem isBlank_space : isBlank ' ' = true := by decide

/-- Drop the blanks at both ends. -/
def trim (s : List Char) : List Char :=
  ((s.dropWhile isBlank).reverse.dropWhile isBlank).reverse

/-- The maximal runs of characters that are not blank, in order. `word` holds the run being read,
last character first. -/
def wordsFrom (word : List Char) : List Char → List (List Char)
  | [] => if word.isEmpty then [] else [word.reverse]
  | c :: s =>
    if isBlank c then
      if word.isEmpty then wordsFrom [] s else word.reverse :: wordsFrom [] s
    else wordsFrom (c :: word) s

/-- The words of a text. -/
def words (s : List Char) : List (List Char) := wordsFrom [] s

end Turtle.Text

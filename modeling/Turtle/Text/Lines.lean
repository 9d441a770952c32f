/-!
# Lines of a text

A text is a sequence of lines separated by newlines. `splitLines` and `joinLines` pass between the
two views; `prefixLines` writes a text in front of every line, as indentation and comments do.
-/

namespace Turtle.Text

/-- The lines between the newlines of a text; a text without a newline is one line. -/
def splitLines : List Char → List (List Char)
  | [] => [[]]
  | c :: s =>
    if c = '\n' then [] :: splitLines s
    else match splitLines s with
      | [] => [[c]]
      | line :: rest => (c :: line) :: rest

/-- The text with these lines. -/
def joinLines : List (List Char) → List Char
  | [] => []
  | [line] => line
  | line :: rest => line ++ '\n' :: joinLines rest

theorem splitLines_ne_nil (s : List Char) : splitLines s ≠ [] := by
  cases s with
  | nil => simp [splitLines]
  | cons c s =>
    simp only [splitLines]
    split
    · simp
    · split <;> simp

@[simp] theorem joinLines_splitLines (s : List Char) : joinLines (splitLines s) = s := by
  induction s with
  | nil => rfl
  | cons c s ih =>
    simp only [splitLines]
    split
    case isTrue h =>
      obtain ⟨line, rest, h'⟩ := List.exists_cons_of_ne_nil (splitLines_ne_nil s)
      rw [h'] at ih ⊢
      simp [joinLines, ih, h]
    case isFalse =>
      obtain ⟨line, rest, h'⟩ := List.exists_cons_of_ne_nil (splitLines_ne_nil s)
      rw [h'] at ih ⊢
      cases rest <;> simp_all [joinLines]

/-- `p` after every newline but a last one that ends the text. -/
def prefixRest (p : List Char) : List Char → List Char
  | [] => []
  | c :: s => if c = '\n' ∧ s ≠ [] then '\n' :: p ++ prefixRest p s else c :: prefixRest p s

/-- `p` in front of every line; a newline that ends the text opens no further line. -/
def prefixLines (p s : List Char) : List Char := p ++ prefixRest p s

end Turtle.Text

namespace Turtle

/-- `p` in front of every line of `s`. -/
def prefixLines (p s : String) : String :=
  String.ofList (Text.prefixLines p.toList s.toList)

end Turtle

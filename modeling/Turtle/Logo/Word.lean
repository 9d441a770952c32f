import Turtle.Text.Lines

/-!
# Quoted words

A Logo word literal is a quote mark followed by the word, with a backslash in front of every
character that would end it. `quote` writes one and `unquote` reads it.
-/

namespace Turtle.Logo.Word

/-- A character that a word literal can hold only behind a backslash. -/
def isDelimiter (c : Char) : Bool :=
  c == '\\' || c == ';' || c == ' ' || c == '|' || c == '~' || c == '\n'

/-- A word with its delimiters escaped. -/
def escape : List Char → List Char
  | [] => []
  | c :: s => if isDelimiter c then '\\' :: c :: escape s else c :: escape s

/-- Read the escapes: a backslash gives way to the character after it. -/
def unescape : List Char → List Char
  | [] => []
  | '\\' :: c :: s => c :: unescape s
  | ['\\'] => []
  | c :: s => c :: unescape s

/-- The literal for a word. -/
def quote (s : List Char) : List Char := '"' :: escape s

/-- Every line as a literal of its own, joined by continued line ends. -/
def quoteLines (s : List Char) : List Char :=
  [ '\\', '\n' ].intercalate ((Text.splitLines s).map quote)

/-- The word that a literal stands for; the quote mark may be missing. -/
def unquote : List Char → List Char
  | '"' :: s => unescape s
  | s => unescape s

/-- No character but the backslash is special to `unescape`. -/
theorem unescape_cons {c : Char} (h : c ≠ '\\') (s : List Char) :
    unescape (c :: s) = c :: unescape s := by
  rw [unescape] <;> simp_all

@[simp] theorem unescape_escape (s : List Char) : unescape (escape s) = s := by
  induction s with
  | nil => rfl
  | cons c s ih =>
    simp only [escape]
    split
    · simp [unescape, ih]
    case isFalse h =>
      rw [unescape_cons (by rintro rfl; exact h rfl), ih]

@[simp] theorem unquote_quote (s : List Char) : unquote (quote s) = s := by
  simp [unquote, quote]

end Turtle.Logo.Word

namespace Turtle.Logo

/-- The word literal for `s`. -/
def quote (s : String) : String := String.ofList (Word.quote s.toList)

/-- The lines of `s` as word literals, each but the last continued on the next line. -/
def quoteLines (s : String) : String := String.ofList (Word.quoteLines s.toList)

/-- The word that the literal `s` stands for. -/
def unquote (s : String) : String := String.ofList (Word.unquote s.toList)

end Turtle.Logo

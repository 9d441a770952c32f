import Turtle.Json.Value
import Turtle.Text.Digit

/-!
# Tokens of documents

A JSON text is a sequence of tokens with blanks between them. The sequence ends in an invalid token
where the text goes wrong.
-/

namespace Turtle.Json

/-- A token. Values that are one token are tokens by themselves, but a text may be a key too. -/
inductive Token where
  | openObject
  | closeObject
  | openArray
  | closeArray
  | colon
  | comma
  | text (s : String)
  | scalar (value : Json)
  | invalid

/-- The blanks between tokens. -/
def isBlank (c : Char) : Bool := c == ' ' || c == '\n' || c == '\t' || c == '\r'

/-! ## Texts -/

/-- The characters that a backslash and a letter stand for in both reading and writing. -/
def shortEscapes : List (Char × Char) := [
  ('"', '"'), ('\\', '\\'), ('b', '\x08'), ('f', '\x0c'), ('n', '\n'), ('r', '\r'), ('t', '\t')]

/-- A unit of UTF-16 in four hexadecimal digits, and what follows it. -/
def readUnit : List Char → Option (Nat × List Char)
  | a :: b :: c :: d :: s => do
    let a ← Text.hexValue? a
    let b ← Text.hexValue? b
    let c ← Text.hexValue? c
    let d ← Text.hexValue? d
    return (((a * 16 + b) * 16 + c) * 16 + d, s)
  | _ => none

/-- Whether a unit is the first of a pair. -/
def isHighSurrogate (n : Nat) : Bool := 0xd800 ≤ n && n < 0xdc00

/-- Whether a unit is the second of a pair. -/
def isLowSurrogate (n : Nat) : Bool := 0xdc00 ≤ n && n < 0xe000

/-- The character of one unit, or of a pair. -/
def readUnits (s : List Char) : Option (Char × List Char) :=
  match readUnit s with
  | none => none
  | some (n, rest) =>
    if isHighSurrogate n then
      match rest with
      | '\\' :: 'u' :: t =>
        match readUnit t with
        | none => none
        | some (m, rest) =>
          if isLowSurrogate m then
            some (Char.ofNat (0x10000 + (n - 0xd800) * 0x400 + (m - 0xdc00)), rest)
          else none
      | _ => none
    else if isLowSurrogate n then none
    else some (Char.ofNat n, rest)

/-- The character that an escape stands for, from behind its backslash. -/
def readEscape : List Char → Option (Char × List Char)
  | [] => none
  | c :: s =>
    if c = 'u' then readUnits s
    else if c = '/' then some ('/', s)
    else (shortEscapes.lookup c).map (·, s)

theorem length_readUnit {s rest : List Char} {n : Nat} (h : readUnit s = some (n, rest)) :
    rest.length ≤ s.length := by
  unfold readUnit at h
  split at h
  · simp only [Option.bind_eq_bind, Option.bind_eq_some_iff, Option.pure_def, Option.some.injEq,
      Prod.mk.injEq] at h
    obtain ⟨_, _, _, _, _, _, _, _, _, rfl⟩ := h
    simp
    omega
  · simp at h

theorem length_readUnits {s rest : List Char} {c : Char} (h : readUnits s = some (c, rest)) :
    rest.length ≤ s.length := by
  unfold readUnits at h
  split at h
  · simp at h
  · rename_i n r hn
    have := length_readUnit hn
    split at h
    · split at h
      · split at h
        · simp at h
        · rename_i m r' hm
          have := length_readUnit hm
          split at h
          · simp only [Option.some.injEq, Prod.mk.injEq] at h
            obtain ⟨_, rfl⟩ := h
            simp at *
            omega
          · simp at h
      · simp at h
    · split at h
      · simp at h
      · simp only [Option.some.injEq, Prod.mk.injEq] at h
        obtain ⟨_, rfl⟩ := h
        assumption

/-- Reading an escape takes some characters. -/
theorem length_readEscape {s rest : List Char} {c : Char} (h : readEscape s = some (c, rest)) :
    rest.length < s.length := by
  unfold readEscape at h
  split at h
  · simp at h
  · split at h
    · exact Nat.lt_succ_of_le (length_readUnits h)
    · split at h
      · simp_all
      · simp only [Option.map_eq_some_iff, Prod.mk.injEq] at h
        obtain ⟨_, _, _, rfl⟩ := h
        simp

/-- A text, from behind its opening mark, and what follows it. -/
def readText (s : List Char) : Option (List Char × List Char) :=
  match s with
  | [] => none
  | c :: s =>
    if c = '"' then some ([], s)
    else if c = '\\' then
      match _h : readEscape s with
      | none => none
      | some (d, rest) => (readText rest).map fun (t, rest) ↦ (d :: t, rest)
    else if c < ' ' then none
    else (readText s).map fun (t, rest) ↦ (c :: t, rest)
termination_by s.length
decreasing_by
  · have := length_readEscape _h
    simp
    omega
  · simp

theorem length_readText {s t rest : List Char} (h : readText s = some (t, rest)) :
    rest.length ≤ s.length := by
  fun_induction readText s generalizing t rest with
  | case1 => simp at h
  | case2 => simp_all
  | case3 => simp at h
  | case4 c s _ d r ih =>
    simp only [Option.map_eq_some_iff, Prod.exists, Prod.mk.injEq] at h
    obtain ⟨_, _, h, _, rfl⟩ := h
    have := ih h
    have := length_readEscape ‹_›
    simp
    omega
  | case5 => simp at h
  | case6 c s _ _ _ ih =>
    simp only [Option.map_eq_some_iff, Prod.exists, Prod.mk.injEq] at h
    obtain ⟨_, _, h, _, rfl⟩ := h
    have := ih h
    simp
    omega

/-! ## Numbers -/

/-- The digits behind a point, of which there must be some. -/
def readFraction : List Char → Option (List Char × List Char)
  | '.' :: s => if (Text.splitDigits s).1 = [] then none else some (Text.splitDigits s)
  | s => some ([], s)

/-- The exponent, if there is one; a sign is allowed, and digits are required. -/
def readExponent : List Char → Option (Option Int × List Char)
  | [] => some (none, [])
  | c :: s =>
    if c = 'e' ∨ c = 'E' then
      let (negative, t) := Text.splitSign s
      let (digits, rest) := Text.splitDigits t
      let n : Int := Text.natOfDigits digits
      if digits = [] then none else some (some (if negative then -n else n), rest)
    else some (none, c :: s)

/-- The longest literal at the start of a text, and what follows it. The digits before the point do
not start with a zero, unless it is the only one. -/
def readLiteral (negative : Bool) (s : List Char) : Option (Literal × List Char) :=
  let (whole, rest) := Text.splitDigits s
  if whole = [] ∨ (whole.head? = some '0' ∧ whole ≠ ['0']) then none
  else do
    let (fraction, rest) ← readFraction rest
    let (exponent, rest) ← readExponent rest
    return ({ negative, whole, fraction, exponent }, rest)

theorem length_readFraction {s t rest : List Char} (h : readFraction s = some (t, rest)) :
    rest.length ≤ s.length := by
  unfold readFraction at h
  split at h
  · rename_i s
    split at h
    · simp at h
    · have := Text.length_splitDigits s
      simp_all
      omega
  · simp_all

theorem length_readExponent {s rest : List Char} {e : Option Int}
    (h : readExponent s = some (e, rest)) : rest.length ≤ s.length := by
  unfold readExponent at h
  split at h
  · simp_all
  · rename_i c s
    split at h
    · have := Text.length_splitSign s
      have := Text.length_splitDigits (Text.splitSign s).2
      simp only at h
      split at h
      · simp at h
      · simp only [Option.some.injEq, Prod.mk.injEq] at h
        rw [← h.2, List.length_cons]
        omega
    · simp_all

/-- A literal has at least one digit. -/
theorem length_readLiteral {negative : Bool} {s rest : List Char} {l : Literal}
    (h : readLiteral negative s = some (l, rest)) : rest.length < s.length := by
  unfold readLiteral at h
  simp only at h
  split at h
  · simp at h
  · rename_i hd
    simp only [Option.bind_eq_bind, Option.bind_eq_some_iff, Option.pure_def, Option.some.injEq,
      Prod.exists, Prod.mk.injEq] at h
    obtain ⟨_, _, hf, _, _, he, _, rfl⟩ := h
    have := Text.length_splitDigits s
    have := List.length_pos_iff.2 (not_or.1 hd).1
    have := length_readFraction hf
    have := length_readExponent he
    omega

/-! ## Tokens -/

/-- A number token. -/
def readNumber (negative : Bool) (s : List Char) : Option (Token × List Char) :=
  match readLiteral negative s with
  | none => none
  | some (l, rest) => l.numeral?.map fun n ↦ (.scalar (.number n), rest)

/-- The mark of structure that a character is. -/
def punctuation? : Char → Option Token
  | '\x7b' => some .openObject
  | '\x7d' => some .closeObject
  | '[' => some .openArray
  | ']' => some .closeArray
  | ':' => some .colon
  | ',' => some .comma
  | _ => none

/-- A word that must come next, for a value. -/
def readWord (word : List Char) (value : Json) (s : List Char) : Option (Token × List Char) :=
  if word.isPrefixOf s then some (.scalar value, s.drop word.length) else none

/-- The first token of a text that begins with `c` and goes on with `s`, and what follows it. -/
def readToken (c : Char) (s : List Char) : Option (Token × List Char) :=
  if c = '"' then (readText s).map fun (t, rest) ↦ (.text (String.ofList t), rest)
  else if c = 'n' then readWord ['u', 'l', 'l'] .null s
  else if c = 't' then readWord ['r', 'u', 'e'] (.bool true) s
  else if c = 'f' then readWord ['a', 'l', 's', 'e'] (.bool false) s
  else if c = '-' then readNumber true s
  else if c.isDigit then readNumber false (c :: s)
  else (punctuation? c).map (·, s)

theorem length_readNumber {negative : Bool} {s rest : List Char} {t : Token}
    (h : readNumber negative s = some (t, rest)) : rest.length < s.length := by
  unfold readNumber at h
  split at h
  · simp at h
  · simp only [Option.map_eq_some_iff, Prod.mk.injEq] at h
    obtain ⟨_, _, _, rfl⟩ := h
    exact length_readLiteral ‹_›

theorem length_readWord {word s rest : List Char} {value : Json} {t : Token}
    (h : readWord word value s = some (t, rest)) : rest.length ≤ s.length := by
  unfold readWord at h
  split at h
  · simp only [Option.some.injEq, Prod.mk.injEq] at h
    obtain ⟨_, rfl⟩ := h
    simp
  · simp at h

/-- A token takes its first character at least. -/
theorem length_readToken {c : Char} {s rest : List Char} {t : Token}
    (h : readToken c s = some (t, rest)) : rest.length ≤ s.length := by
  unfold readToken at h
  split at h
  · simp only [Option.map_eq_some_iff, Prod.exists, Prod.mk.injEq] at h
    obtain ⟨_, _, h, _, rfl⟩ := h
    exact length_readText h
  split at h
  · exact length_readWord h
  split at h
  · exact length_readWord h
  split at h
  · exact length_readWord h
  split at h
  · exact Nat.le_of_lt (length_readNumber h)
  split at h
  · exact Nat.le_of_lt_succ (length_readNumber h)
  · simp only [Option.map_eq_some_iff, Prod.mk.injEq] at h
    obtain ⟨_, _, _, rfl⟩ := h
    exact Nat.le_refl _

/-- The tokens of a text. -/
def tokens : List Char → List Token
  | [] => []
  | c :: s =>
    if isBlank c then tokens s
    else match _h : readToken c s with
      | none => [.invalid]
      | some (t, rest) => t :: tokens rest
termination_by s => s.length
decreasing_by
  · simp
  · exact Nat.lt_succ_of_le (length_readToken _h)

end Turtle.Json

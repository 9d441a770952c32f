import Mathlib.Data.List.Basic
import Turtle.Proofs.Identifier.Legal

/-!
# Identifiers by way of URIs

An identifier can be had in three passes over the whole name: spaces become underscores, the result
is encoded as in a URI, and whatever is still no character of an identifier becomes an underscore.
`ofName` decides about each character at once, and comes to the same.  What is an identifier already
stays as it is.
-/

namespace Turtle.Identifier

variable {c : Char} {s : List Char}

/-! ## Encoding for URIs -/

/-- The hexadecimal digits of upper case. -/
def hexDigits : List Char := "0123456789ABCDEF".toList

/-- The characters other than letters and digits that a URI holds as they are. -/
def uriPunctuation : List Char :=
  [';', ',', '/', '?', ':', '@', '&', '=', '+', '$', '-', '_', '.', '!', '~', '*', '\'', '(', ')',
    '#']

/-- The characters that a URI holds as they are. -/
def isUriChar (c : Char) : Bool := c.isAlphanum || uriPunctuation.contains c

/-- A byte in a URI: a percent sign and two hexadecimal digits. -/
def percentByte (b : UInt8) : List Char :=
  ['%', hexDigits.getD (b.toNat / 16) '0', hexDigits.getD (b.toNat % 16) '0']

/-- A character in a URI. -/
def percentChar (c : Char) : List Char :=
  if isUriChar c then [c] else (String.utf8EncodeChar c).flatMap percentByte

/-- Every space replaced by an underscore. -/
def joinWords (s : List Char) : List Char := s.map fun c ↦ if c = ' ' then '_' else c

/-- A text in a URI. -/
def encodeUri (s : List Char) : List Char := s.flatMap percentChar

/-- Every character that no identifier has replaced by an underscore. -/
def maskChars (s : List Char) : List Char := s.map fun c ↦ if isLegalChar c then c else '_'

/-- The identifier for a name that is not empty, pass by pass. -/
def ofUri (name : List Char) : List Char :=
  let word := maskChars (encodeUri (joinWords name))
  if word.head?.any Char.isDigit then "my_".toList ++ word else word

/-! ## One character -/

theorem isUriChar_eq (c : Char) : isUriChar c = (isLegalChar c || uriMarks.contains c) := by
  have hmarks : uriPunctuation = uriMarks.take 11 ++ '_' :: uriMarks.drop 11 := rfl
  have hmem : c ∈ uriPunctuation ↔ c = '_' ∨ c ∈ uriMarks := by
    rw [hmarks, List.perm_middle.mem_iff, List.mem_cons, List.take_append_drop]
  rw [Bool.eq_iff_iff]
  simp only [isUriChar, isLegalChar, Bool.or_eq_true, List.contains_iff_mem, beq_iff_eq, hmem,
    or_assoc]

theorem hexDigits_getD : ∀ n < 16, hexDigits.getD n '0' = Text.hexDigit n := by decide

theorem maskChars_of_legal (h : ∀ c ∈ s, isLegalChar c) : maskChars s = s := by
  refine (List.map_congr_left fun c hc ↦ if_pos (h c hc)).trans ?_
  exact List.map_id s

theorem maskChars_percentByte (b : UInt8) : maskChars (percentByte b) = spellByte b := by
  have hb : b.toNat < 256 := b.toNat_lt
  have hhigh := hexDigits_getD (b.toNat / 16) (by omega)
  have hlow := hexDigits_getD (b.toNat % 16) (by omega)
  have hspell : percentByte b =
      '%' :: [Text.hexDigit (b.toNat / 16), Text.hexDigit (b.toNat % 16)] := by
    rw [percentByte, hhigh, hlow]
  have hdigits : ∀ c ∈ [Text.hexDigit (b.toNat / 16), Text.hexDigit (b.toNat % 16)],
      isLegalChar c := by
    simp only [List.forall_mem_cons]
    exact ⟨isLegalChar_hexDigit _ (by omega), isLegalChar_hexDigit _ (by omega), nofun⟩
  rw [hspell]
  exact congrArg ('_' :: ·) (maskChars_of_legal hdigits)

/-- A character is spelled the way the passes leave it. -/
theorem maskChars_percentChar (c : Char) :
    maskChars (percentChar (if c = ' ' then '_' else c)) = spell c := by
  by_cases hspace : c = ' '
  · subst hspace
    decide
  have hspace' : (c == ' ') = false := beq_eq_false_iff_ne.2 hspace
  rw [if_neg hspace, percentChar, isUriChar_eq, spell, hspace', Bool.false_or]
  cases hlegal : isLegalChar c with
  | true => exact maskChars_of_legal (List.forall_mem_singleton.2 hlegal)
  | false =>
    rw [Bool.false_or, if_neg Bool.false_ne_true]
    cases uriMarks.contains c with
    | true =>
      rw [if_pos rfl, if_pos rfl, maskChars, List.map_singleton, hlegal]
      rfl
    | false =>
      rw [if_neg Bool.false_ne_true, if_neg Bool.false_ne_true, maskChars, List.map_flatMap]
      exact List.flatMap_congr fun b _ ↦ maskChars_percentByte b

/-! ## The whole name -/

theorem maskChars_encodeUri (s : List Char) :
    maskChars (encodeUri (joinWords s)) = s.flatMap spell := by
  rw [encodeUri, joinWords, List.flatMap_map, maskChars, List.map_flatMap]
  exact List.flatMap_congr fun c _ ↦ maskChars_percentChar c

theorem guardDigit_eq (s : List Char) :
    guardDigit s = if s.head?.any Char.isDigit then "my_".toList ++ s else s := by
  cases s with
  | nil => rfl
  | cons c s => rfl

theorem ofName_eq_ofUri (h : s ≠ []) : ofName s = ofUri s := by
  rw [ofName, if_neg (by simpa using h), guardDigit_eq, ofUri, maskChars_encodeUri]

/-- Nothing about an identifier has to be changed. -/
theorem ofName_of_isLegal (h : isLegal s) : ofName s = s := by
  have hspell : s.flatMap spell = s := by
    conv => rhs; rw [← List.flatMap_singleton' s]
    exact List.flatMap_congr fun c hc ↦ if_pos (isLegalChar_of_mem h hc)
  cases s with
  | nil => cases h
  | cons c s =>
    simp only [isLegal, Bool.and_eq_true, Bool.not_eq_true'] at h
    rw [ofName, if_neg (by simp), hspell, guardDigit, h.1]
    rfl

end Turtle.Identifier

namespace Turtle

theorem identifier_of_isIdentifier {s : String} (h : isIdentifier s) : identifier s = s := by
  rw [identifier, Identifier.ofName_of_isLegal h, String.ofList_toList]

/-- The identifier for a name that is not empty is what the three passes make of it, with `my_` in
front of a digit.  It is legal, and it is its own identifier, for the empty name as well. -/
theorem identifier_eq_ofUri (name : String) :
    (identifier name =
      if name = "" then "unnamed" else String.ofList (Identifier.ofUri name.toList)) ∧
    isIdentifier (identifier name) ∧ identifier (identifier name) = identifier name := by
  refine ⟨?_, isIdentifier_identifier name, ?_⟩
  · split
    case isTrue hempty =>
      subst hempty
      rfl
    case isFalse hne =>
      rw [identifier, Identifier.ofName_eq_ofUri (mt String.toList_eq_nil_iff.1 hne)]
  · exact identifier_of_isIdentifier (isIdentifier_identifier name)

-- A quotation mark and a letter beyond ASCII are encoded, and a bracket and a hyphen are masked.
example : identifier "2 [a-é]\"" = "my_2__5Ba__C3_A9_5D_22" := by decide

end Turtle

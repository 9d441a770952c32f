import Turtle.Xml.Attribute
import Turtle.Xml.Token.Context

/-!
# The XML declaration

A text may begin with a declaration of its version and of its encoding. The text has been read as
UTF-8 by then; a narrower encoding only changes what is behind the declaration.
-/

namespace Turtle.Xml

/-- The encodings that a declaration may name. -/
inductive Encoding where
  | utf8
  | latin1
  | ascii
deriving DecidableEq, Repr

namespace Encoding

/-- Whether a name and a label in lower case agree as far as both of them go. -/
def agrees (name label : String) : Bool :=
  (name.toList.zip label.toList).all fun (c, d) ↦ c.toLower == d

/-- The encoding of a name in any case. A name may be cut off, or be longer than the label that it
is known by. -/
def ofName? (name : String) : Option Encoding :=
  if ["utf-8", "utf8"].any (agrees name) then some .utf8
  else if ["iso-8859-1", "latin1"].any (agrees name) then some .latin1
  else if ["ascii", "us-ascii"].any (agrees name) then some .ascii
  else none

/-- A text of UTF-8, read again in another encoding. -/
def reread (s : List Char) : Encoding → Option (List Char)
  | utf8 => some s
  | latin1 => some ((s.flatMap String.utf8EncodeChar).map fun b ↦ Char.ofNat b.toNat)
  | ascii => if s.all (·.toNat < 0x80) then some s else none

end Encoding

/-- The version of a number. -/
def Version.ofNumber? (number : String) : Option Version :=
  if number = "1.0" then some .v10 else if number = "1.1" then some .v11 else none

/-- Whether a name is a key of a declaration. Only what follows the first letter is read as a name,
so a namespace may stand behind that letter. -/
def isKey (key : String) (name : Name) : Bool :=
  match name.space.map String.toList with
  | none => name.base == key
  | some [] => false
  | some (first :: space) =>
    key.toList == first :: name.base.toList && space.head?.any isNameStart

/-- Whether a text tells if a document is complete in itself, which must be yes or no, but changes
nothing. -/
def isAnswer (value : String) : Bool := value == "yes" || value == "no"

/-- The version that the first item of a declaration tells. -/
def declaredVersion (items : List (Name × String)) : Version :=
  (items.head?.bind fun (_, number) ↦ Version.ofNumber? number).getD .v10

/-- The encoding that the items of a declaration tell. They come in a fixed order. -/
def declaredEncoding? : List (Name × String) → Option Encoding
  | (name, number) :: items => do
    if !(isKey "version" name && (Version.ofNumber? number).isSome) then none
    let (encoding, items) ← match items with
      | (name, value) :: rest =>
        if isKey "encoding" name then (Encoding.ofName? value).map (·, rest)
        else some (.utf8, items)
      | [] => some (.utf8, items)
    match items with
    | [] => return encoding
    | [(name, answer)] =>
      if isKey "standalone" name && isAnswer answer then return encoding else none
    | _ => none
  | [] => none

/-- The items of a declaration up to its end, and what follows it. -/
def readItems? (x : Context) (a : AttributeList) :
    List Char → Option (List (Name × String) × List Char)
  | [] => none
  | c :: s => do
    let (tokens, x) ← x.read c
    if tokens = [.instructionEnd] ∧ a.mayEnd then return (a.complete.reverse, s)
    readItems? x (← tokens.foldlM (AttributeList.read? (declaredVersion a.complete.reverse) []) a) s

/-- The mark that tells UTF-8, in front of a text. -/
def byteOrderMark : Char := '\ufeff'

/-- The start of a declaration. -/
def declarationStart : List Char := "<?xml".toList

/-- The version of a text, and what follows its declaration. A text with a byte order mark is
UTF-8. -/
def prolog? (s : List Char) : Option (Version × List Char) :=
  let marked := s.head? = some byteOrderMark
  let s := if marked then s.tail else s
  let rest := s.drop declarationStart.length
  if declarationStart.isPrefixOf s ∧ rest.head?.any isSpace then do
    let (items, rest) ← readItems? { mode := .instruction } {} rest
    let encoding ← declaredEncoding? items
    if marked ∧ encoding ≠ .utf8 then none
    else return (declaredVersion items, ← encoding.reread rest)
  else some (.v10, s)

end Turtle.Xml

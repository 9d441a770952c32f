/-!
# Characters of XML

The classes of characters that XML names and documents are made of.
-/

namespace Turtle.Xml

/-- White space: inside a tag it separates, and a text of nothing else is layout. -/
def isSpace (c : Char) : Bool := c == ' ' || c == '\t' || c == '\n' || c == '\r'

/-- The ranges of the characters that may begin a name, apart from those of ASCII. -/
def nameStartRanges : List (Nat × Nat) := [
  (0xc0, 0xd6), (0xd8, 0xf6), (0xf8, 0x2ff), (0x370, 0x37d), (0x37f, 0x1fff), (0x200c, 0x200d),
  (0x2070, 0x218f), (0x2c00, 0x2fef), (0x3001, 0xd7ff), (0xf900, 0xfdcf), (0xfdf0, 0xfffd),
  (0x10000, 0xeffff)]

/-- Whether a character may begin a name. -/
def isNameStart (c : Char) : Bool :=
  c.isAlpha || c == '_' || c == ':' ||
  nameStartRanges.any fun (low, high) ↦ low ≤ c.toNat && c.toNat ≤ high

/-- Whether a character may stand in a name. -/
def isNameChar (c : Char) : Bool :=
  isNameStart c || c.isDigit || c == '-' || c == '.' || c == '\xb7' ||
  (0x300 ≤ c.toNat && c.toNat ≤ 0x36f) || c == '\u203f' || c == '\u2040'

/-- The versions of XML, which differ in the control characters they allow. -/
inductive Version where
  | v10
  | v11
deriving DecidableEq, Repr

/-- Whether a character may be written by its number. -/
def Version.allows (v : Version) (c : Char) : Bool :=
  let n := c.toNat
  let control := match v with
    | .v10 => isSpace c
    | .v11 => n != 0
  (if n < 0x20 then control else true) && n != 0xfffe && n != 0xffff

/-- Whether a character may stand for itself. -/
def Version.allowsRaw (v : Version) (c : Char) : Bool :=
  let n := c.toNat
  match v with
  | .v10 => v.allows c
  | .v11 => v.allows c && (0x20 ≤ n || isSpace c) && !(0x7f ≤ n && n ≤ 0x9f && n != 0x85)

end Turtle.Xml

import Turtle.Number.Decimal
import Turtle.Text.Blank
import Turtle.Text.Digit

/-!
# Reading numbers

`Binary64.read?` is the grammar of decimal numbers with an optional fraction and exponent, and of
the names of the values that are not finite. `Number.read` and `Number.write` are the conversions
that number fields of blocks go through, and `Number.isLiteral` tells a plain decimal literal.
-/

namespace Turtle

namespace Binary64

/-- The exponent part of a number, from its letter on; nothing at all is exponent zero. -/
def readExponent? : List Char → Option Int
  | [] => some 0
  | c :: s =>
    if c == 'e' || c == 'E' then
      let (negative, digits) := Text.splitSign s
      if digits.isEmpty || !digits.all Char.isDigit then none
      else
        let n := Text.natOfDigits digits
        some (if negative then -n else n)
    else none

/-- A number without its sign: digits around an optional point, at least one in all, and an
optional exponent. -/
def readUnsigned? (negative : Bool) (s : List Char) : Option Binary64 :=
  let whole := s.takeWhile Char.isDigit
  let (fraction, rest) := match s.dropWhile Char.isDigit with
    | '.' :: t => (t.takeWhile Char.isDigit, t.dropWhile Char.isDigit)
    | t => ([], t)
  if whole.isEmpty && fraction.isEmpty then none
  else (readExponent? rest).map fun exponent =>
    ofDecimal negative (Text.natOfDigits (whole ++ fraction)) (exponent - fraction.length)

/-- Read a number; letters may be of either case. -/
def read? (s : List Char) : Option Binary64 :=
  let (negative, t) := Text.splitSign s
  let name := String.ofList (t.map Char.toLower)
  if name == "nan" then some .nan
  else if name == "inf" || name == "infinity" then some (.infinity negative)
  else readUnsigned? negative t

end Binary64

namespace Number

/-- The text of a number in a program: plain digits from a millionth up to `1e+21`. -/
def style : Decimal.Style where
  positionalFrom := -6
  positionalTo := 20
  wholePoint := false
  signedZero := false
  tie := .up

/-- The text of a number. -/
def write (x : Binary64) : String := Decimal.write style x

/-- The number that a field holds: blank text is zero, and what is no number is `nan`. -/
def read (s : String) : Binary64 :=
  match Text.trim s.toList with
  | [] => .finite false 0
  | t => (Binary64.read? t).getD .nan

/-- What follows the digits of a literal: nothing, or a point and more digits. -/
def isFraction : List Char → Bool
  | [] => true
  | '.' :: s => !s.isEmpty && s.all Text.isDecimal
  | _ => false

/-- A literal without its sign. -/
def isUnsignedLiteral (s : List Char) : Bool :=
  !(s.takeWhile Text.isDecimal).isEmpty && isFraction (s.dropWhile Text.isDecimal)

/-- Whether a text is a decimal literal without an exponent, as `3`, `-2` and ` 4.5 ` are. Digits of
any script count. -/
def isLiteral (s : String) : Bool :=
  match Text.trim s.toList with
  | '-' :: t => isUnsignedLiteral t
  | t => isUnsignedLiteral t

end Number

end Turtle

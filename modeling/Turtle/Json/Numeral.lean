import Turtle.Number.Decimal
import Turtle.Text.Digit

/-!
# Numbers of documents

Integers of 64 bits are kept exact, and all other numbers are doubles. A double is computed from a
significand of 64 bits and a power of ten, each rounded before they are put together, so its last
bit may differ from that of the nearest double.
-/

namespace Turtle.Json

/-- A number of a document. -/
inductive Numeral where
  | integer (n : Int)
  | double (x : Binary64)
deriving DecidableEq, Repr

/-- The digits of a number as they are written. -/
structure Literal where
  negative : Bool
  whole : List Char
  /-- The digits behind the point; none if there is no point. -/
  fraction : List Char
  /-- The exponent, if one is written. -/
  exponent : Option Int
deriving Repr

namespace Literal

/-- The bound of integers without sign. -/
def wordLimit : Nat := Nat.pow 2 64

/-- Append digits to a number of 64 bits as long as they fit, and return those that do not. -/
def absorb (n : Nat) : List Char → Nat × List Char
  | [] => (n, [])
  | c :: s =>
    let m := 10 * n + Text.digitValue c
    if m < wordLimit then absorb m s else (n, c :: s)

/-- The magnitude of the double nearest to `10 ^ k`. -/
def power (k : Nat) : Nat := Binary64.roundUnits (Nat.pow 10 k * Binary64.one) 1

/-- A magnitude divided by a power of ten. -/
def shrink (units k : Nat) : Nat := Binary64.roundUnits (units * Binary64.one) (power k)

/-- The magnitude for a significand and an exponent, unless it is beyond all doubles. The table of
powers ends at 308, so that a smaller exponent takes two divisions. -/
def magnitude? (significand : Nat) (exponent : Int) : Option Nat :=
  let units := Binary64.roundUnits (significand * Binary64.one) 1
  if 0 ≤ exponent then
    if units = 0 then some 0
    else if 308 < exponent then none
    else
      let scaled := Binary64.roundUnits (units * power exponent.toNat) Binary64.one
      if scaled < Binary64.limit then some scaled else none
  else if -308 ≤ exponent then some (shrink units exponent.natAbs)
  else if -616 ≤ exponent then some (shrink (shrink units 308) (exponent.natAbs - 308))
  else some 0

/-- The double that a literal writes, unless it is beyond all doubles. -/
def double? (l : Literal) : Option Binary64 :=
  let (head, wholeRest) := absorb 0 l.whole
  let (significand, fractionRest) := absorb head l.fraction
  let shift : Int := wholeRest.length + fractionRest.length - l.fraction.length
  (magnitude? significand (l.exponent.getD 0 + shift)).map (.finite l.negative)

/-- The number that a literal writes, unless it is beyond all doubles. There is no negative zero
among the integers. -/
def numeral? (l : Literal) : Option Numeral :=
  let n := Text.natOfDigits l.whole
  if l.fraction = [] ∧ l.exponent = none ∧ n < wordLimit then
    if l.negative then
      if n = 0 ∨ Nat.pow 2 63 < n then some (.double (Binary64.ofRatio true n 1))
      else some (.integer (-n))
    else some (.integer n)
  else l.double?.map .double

end Literal

namespace Numeral

/-- The double nearest to a number. -/
def toBinary64 : Numeral → Binary64
  | integer n => .ofInt n
  | double x => x

/-- The text of a double in a document: a fraction is always written, and the exponents from -5 to
15 are not. -/
def style : Decimal.Style where
  positionalFrom := -5
  positionalTo := 15
  wholePoint := true
  signedZero := true
  tie := .even

/-- The text of a number. -/
def write : Numeral → String
  | integer n => toString n
  | double x => Decimal.write style x

end Numeral

end Turtle.Json

/-!
# Double-precision numbers

A finite double is a whole number of units of `2 ^ -1074`, the smallest positive double, together
with a sign that zero has too. So magnitudes are natural numbers, sums are exact before they are
rounded, and the order is the order of integers.
-/

namespace Turtle

/-- A double-precision number. -/
inductive Binary64 where
  | nan
  | infinity (negative : Bool)
  /-- The number `± units * 2 ^ -1074`. -/
  | finite (negative : Bool) (units : Nat)
deriving DecidableEq, Repr, Inhabited

namespace Binary64

/-- One, in units. -/
def one : Nat := Nat.pow 2 1074

/-- The magnitude at which rounding gives infinity, in units. -/
def limit : Nat := Nat.pow 2 2098

/-- The whole number nearest to `num / den`, a tie going to the even one. -/
def nearest (num den : Nat) : Nat :=
  let q := num / den
  let twice := 2 * (num % den)
  if den < twice || (twice == den && q % 2 == 1) then q + 1 else q

/-- How many low bits of a magnitude are beyond the 53 that a double keeps. -/
def spareBits (units : Nat) : Nat := units.log2 - 52

/-- The magnitude of at most 53 significant bits nearest to `num / den` units. -/
def roundUnits (num den : Nat) : Nat :=
  let e := spareBits (num / den)
  nearest num (den <<< e) <<< e

/-- The double of a sign nearest to `num / den` units. -/
def round (negative : Bool) (num den : Nat) : Binary64 :=
  let units := roundUnits num den
  if units < limit then .finite negative units else .infinity negative

/-- The largest finite double. -/
def largest : Binary64 := .finite false ((Nat.pow 2 53 - 1) <<< 2045)

/-- The double nearest to `num / den`. -/
def ofRatio (negative : Bool) (num den : Nat) : Binary64 := round negative (num * one) den

/-- The double nearest to an integer. -/
def ofInt (i : Int) : Binary64 := ofRatio (i < 0) i.natAbs 1

/-- The double nearest to `digits * 10 ^ exponent`. Exponents far outside the range of doubles are
answered without computing the power. -/
def ofDecimal (negative : Bool) (digits : Nat) (exponent : Int) : Binary64 :=
  if digits = 0 then .finite negative 0
  else if 0 ≤ exponent then
    if 400 ≤ exponent then .infinity negative
    else ofRatio negative (digits * Nat.pow 10 exponent.toNat) 1
  else
    let places := exponent.natAbs
    if digits.log2 / 3 + 330 < places then .finite negative 0
    else ofRatio negative digits (Nat.pow 10 places)

/-- Change the sign. -/
def neg : Binary64 → Binary64
  | .nan => .nan
  | .infinity negative => .infinity !negative
  | .finite negative units => .finite (!negative) units

instance : Neg Binary64 := ⟨neg⟩

/-- A finite double as an integer number of units. -/
def signedUnits (negative : Bool) (units : Nat) : Int := if negative then -units else units

/-- The rounded sum. Opposite zeros add up to positive zero. -/
def add : Binary64 → Binary64 → Binary64
  | .nan, _ | _, .nan => .nan
  | .infinity a, .infinity b => if a = b then .infinity a else .nan
  | .infinity a, .finite _ _ => .infinity a
  | .finite _ _, .infinity b => .infinity b
  | .finite a x, .finite b y =>
    let sum := signedUnits a x + signedUnits b y
    if sum = 0 then .finite (a && b) 0 else round (sum < 0) sum.natAbs 1

instance : Add Binary64 := ⟨add⟩

/-- The order of doubles; nothing compares with a value that is not a number, and the two zeros
are equal. -/
def compare? : Binary64 → Binary64 → Option Ordering
  | .nan, _ | _, .nan => none
  | .infinity a, .infinity b => some (compare b a)
  | .infinity a, .finite _ _ => some (if a then .lt else .gt)
  | .finite _ _, .infinity b => some (if b then .gt else .lt)
  | .finite a x, .finite b y => some (compare (signedUnits a x) (signedUnits b y))

/-- Whether a double is at least zero. -/
def isNonneg (x : Binary64) : Bool :=
  match compare? x (.finite false 0) with
  | some o => o != .lt
  | none => false

end Binary64

end Turtle

import Turtle.Number.Binary64

/-!
# Decimal text of doubles

A double is written with the fewest digits that read back as the same double, and of those with
the digits nearest to it. `shortest` finds the digits; a `Style` lays them out.
-/

namespace Turtle

/-- Which of two equally near digit strings is written. -/
inductive Tie where
  | up
  | even
deriving DecidableEq, Repr

namespace Binary64

/-- The real numbers that round to a magnitude `units`, in quarters of a unit, and whether the ends
round to it too. -/
structure Interval where
  low : Nat
  high : Nat
  closed : Bool

/-- The interval around a magnitude. Below a power of two the doubles lie closer together. -/
def interval (units : Nat) : Interval :=
  let e := spareBits units
  let m := units >>> e
  let gap := 1 <<< e
  { low := 4 * units - if m = Nat.pow 2 52 ∧ 0 < e then gap else 2 * gap
    high := 4 * units + 2 * gap
    closed := m % 2 == 0 }

/-- Whether the real number `num / den`, in quarters of a unit, lies in an interval. -/
def Interval.holds (i : Interval) (num den : Nat) : Bool :=
  if i.closed then i.low * den ≤ num && num ≤ i.high * den
  else i.low * den < num && num < i.high * den

/-- The exponent of the first decimal digit of a magnitude that is not zero. -/
def leadingExponent (units : Nat) : Int :=
  (Nat.toDigits 10 (units * Nat.pow 10 340 / one)).length - 341

/-- Ten to the power `k` as a fraction. -/
def tenTo (k : Int) : Nat × Nat :=
  if 0 ≤ k then (Nat.pow 10 k.toNat, 1) else (1, Nat.pow 10 k.natAbs)

/-- The multiple of `10 ^ k` next below a magnitude, and whether it is nearer to it than the next
one above. -/
def gridBelow (tie : Tie) (units : Nat) (k : Int) : Nat × Bool :=
  let (num, den) := tenTo k
  let step := num * one
  let below := units * den / step
  let twice := 2 * (units * den % step)
  (below, twice < step || (twice == step && tie == .even && below % 2 == 0))

/-- The multiple of `10 ^ k` nearest to a magnitude. -/
def nearestOnGrid (tie : Tie) (units : Nat) (k : Int) : Nat :=
  let (below, isNearer) := gridBelow tie units k
  if isNearer then below else below + 1

/-- The multiple of `10 ^ k` that is written for a magnitude, if one next to it reads back. -/
def onGrid (tie : Tie) (units : Nat) (k : Int) : Option Nat :=
  let (num, den) := tenTo k
  let (below, isNearer) := gridBelow tie units k
  let i := interval units
  let reads (n : Nat) : Bool := i.holds (4 * n * (num * one)) den
  match reads below, reads (below + 1) with
  | true, true => some (if isNearer then below else below + 1)
  | true, false => some below
  | false, true => some (below + 1)
  | false, false => none

/-- Search the grids of `count` digits and more for at most `more` failures, and take the nearest
multiple of the grid after those. -/
def searchGrids (tie : Tie) (units : Nat) (lead : Int) (count : Nat) : Nat → Nat × Int
  | 0 =>
    let k := lead - count + 1
    (nearestOnGrid tie units k, k)
  | more + 1 =>
    let k := lead - count + 1
    match onGrid tie units k with
    | some n => (n, k)
    | none => searchGrids tie units lead (count + 1) more

/-- The coefficient and the exponent of the shortest decimal that reads back as a magnitude that is
not zero. Seventeen digits always suffice. -/
def shortest (tie : Tie) (units : Nat) : Nat × Int :=
  searchGrids tie units (leadingExponent units) 1 16

end Binary64

namespace Decimal

/-- How a program lays out the digits of a double. -/
structure Style where
  /-- The exponents of the first digit that are written without an exponent. -/
  positionalFrom : Int
  positionalTo : Int
  /-- A whole number is written with a fraction of one zero. -/
  wholePoint : Bool
  /-- Negative zero keeps its sign. -/
  signedZero : Bool
  tie : Tie
deriving Repr

/-- Drop the zeros that end a digit string. -/
def stripZeros (digits : List Char) : List Char :=
  (digits.reverse.dropWhile (· == '0')).reverse

/-- Digits with the decimal exponent of the first one, without an exponent. -/
def positional (wholePoint : Bool) (digits : List Char) (lead : Int) : List Char :=
  if lead < 0 then
    '0' :: '.' :: List.replicate (lead.natAbs - 1) '0' ++ digits
  else
    let whole := lead.toNat + 1
    if digits.length ≤ whole then
      digits ++ List.replicate (whole - digits.length) '0' ++ if wholePoint then ['.', '0'] else []
    else digits.take whole ++ '.' :: digits.drop whole

/-- Digits with the decimal exponent of the first one, with an exponent. -/
def scientific (digits : List Char) (lead : Int) : List Char :=
  let mantissa := match digits with
    | d :: d' :: rest => d :: '.' :: d' :: rest
    | short => short
  mantissa ++ 'e' :: (if lead < 0 then '-' else '+') :: Nat.toDigits 10 lead.natAbs

/-- A decimal, laid out. -/
def layOut (style : Style) (coefficient : Nat) (exponent : Int) : List Char :=
  let all := Nat.toDigits 10 coefficient
  let lead := exponent + all.length - 1
  let digits := stripZeros all
  if style.positionalFrom ≤ lead ∧ lead ≤ style.positionalTo then
    positional style.wholePoint digits lead
  else scientific digits lead

/-- The digits of a magnitude that is not zero, laid out. -/
def magnitude (style : Style) (units : Nat) : List Char :=
  let found := Binary64.shortest style.tie units
  layOut style found.1 found.2

/-- The text of a double. -/
def write (style : Style) : Binary64 → String
  | .nan => "NaN"
  | .infinity negative => if negative then "-Infinity" else "Infinity"
  | .finite negative units =>
    let zero := units == 0
    let text := if zero then '0' :: (if style.wholePoint then ['.', '0'] else [])
      else magnitude style units
    String.ofList (if negative && (style.signedZero || !zero) then '-' :: text else text)

end Decimal

end Turtle

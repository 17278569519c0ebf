import SparseTables.Bounds
import SparseTables.Number.Basic

/-
  This file rounds quotients to the nearest number and
  defines what is computed with numbers: conversions from and
  to integers, comparison with integers, sums and products.

  All of it is exact arithmetic on natural numbers followed
  by one rounding, ties going to the even neighbour.

  Key definitions include:
    * `Number.ofRatio`
    * `Number.ofInt`
    * `Number.ofSingleRatio`
    * `Number.toInt64`
    * `Number.compareInt`
    * `Number.add`
    * `Number.mul`
-/

namespace SparseTables

namespace Number

------------------------------------------------------------
-- Rounding a quotient
------------------------------------------------------------

/- The nearest integer, a tie going to the even one. -/
def halfEven (num den : Nat) : Nat :=
  let whole := num / den
  let twice := 2 * (num % den)
  if den < twice then
    whole + 1
  else if twice = den then
    whole + whole % 2
  else
    whole

/-
  The power of two that is one unit in the last place of a
  quotient with `precision` significant bits, at least
  `2 ^ least`.
-/
def unitExponent
    (precision : Nat)
    (least : Int)
    (num den : Nat) : Int :=
  let span : Int := (num.log2 : Int) - (den.log2 : Int)
  let below :=
    if 0 ≤ span then
      num < den * Nat.pow 2 span.toNat
    else
      num * Nat.pow 2 (-span).toNat < den
  if below then
    max least (span - precision)
  else
    max least (span + 1 - precision)

/- The nearest multiple of a unit, in units. -/
def unitCount (num den : Nat) (unit : Int) : Nat :=
  if 0 ≤ unit then
    halfEven num (den * Nat.pow 2 unit.toNat)
  else
    halfEven (num * Nat.pow 2 (-unit).toNat) den

/- The nearest number to a quotient. -/
def ofRatio
    (negative : Bool)
    (num den : Nat) : Number :=
  if num = 0 then
    saturated negative 0
  else
    let unit := unitExponent 53 (-1074) num den
    let count := unitCount num den unit
    saturated negative
      ((unit + 1074).toNat * fractions + count)

/-
  The nearest number of 32 bits to a quotient, as a number
  of 64 bits.
-/
def ofSingleRatio
    (negative : Bool)
    (num den : Nat) : Number :=
  let unit := unitExponent 24 (-149) num den
  let count := unitCount num den unit
  if 0 ≤ unit then
    let value := count * Nat.pow 2 unit.toNat
    if Nat.pow 2 128 ≤ value then
      signed negative infinity
    else
      ofRatio negative value 1
  else
    ofRatio negative count (Nat.pow 2 (-unit).toNat)

------------------------------------------------------------
-- Integers
------------------------------------------------------------

/- The nearest number to an integer. -/
def ofInt (i : Int) : Number :=
  ofRatio (decide (i < 0)) i.natAbs 1

/- The bounds of signed integers of 64 bits. -/
def leastInt64 : Int :=
  -Bounds.signed64

def mostInt64 : Int :=
  Bounds.signed64 - 1

/-
  The integer part, kept within 64 bits: what is beyond
  becomes the nearest bound, NaN becomes zero.
-/
def toInt64 (x : Number) : Int :=
  if x.isNaN then
    0
  else if x.isFinite then
    max leastInt64 (min mostInt64 x.truncated)
  else if x.negative then
    leastInt64
  else
    mostInt64

/- How a number that is not NaN compares with an integer. -/
def compareInt (x : Number) (i : Int) : Ordering :=
  if x.isFinite then
    let value : Int :=
      if x.negative then -(x.ratio.1 : Int) else x.ratio.1
    compare value (i * x.ratio.2)
  else if x.negative then
    .lt
  else
    .gt

------------------------------------------------------------
-- Sums and products
------------------------------------------------------------

/- The least positive number is one over this. -/
def scale : Nat :=
  Nat.pow 2 1074

/- A finite number as a multiple of the least positive one. -/
def units (x : Number) : Int :=
  let size := x.significand * Nat.pow 2 (x.exponent + 1074).toNat
  if x.negative then -(size : Int) else size

/- The rounded sum; opposite infinities have none. -/
def add (x y : Number) : Number :=
  if x.isNaN || y.isNaN then
    nan
  else if x.isFinite && y.isFinite then
    let sum := x.units + y.units
    let negative :=
      if sum = 0 then x.negative && y.negative
      else decide (sum < 0)
    ofRatio negative sum.natAbs scale
  else if x.isFinite then
    y
  else if y.isFinite || x.negative == y.negative then
    x
  else
    nan

/- The rounded difference. -/
def sub (x y : Number) : Number :=
  x.add y.neg

/- The rounded product; zero times infinity is none. -/
def mul (x y : Number) : Number :=
  let negative := x.negative != y.negative
  if x.isNaN || y.isNaN then
    nan
  else if x.isFinite && y.isFinite then
    ofRatio negative
      (x.ratio.1 * y.ratio.1)
      (x.ratio.2 * y.ratio.2)
  else if x.isZero || y.isZero then
    nan
  else
    signed negative infinity

end Number

end SparseTables

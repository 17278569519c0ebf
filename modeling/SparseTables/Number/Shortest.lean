import SparseTables.Number.Rounding

/-
  This file finds the fewest decimal digits of a number that
  read back as the same number.

  Key definitions include:
    * `Digits`
    * `Number.shortest`
-/

namespace SparseTables

------------------------------------------------------------
-- Digits and the decimal grid
------------------------------------------------------------

/- The value `0.ddd` times a power of ten. -/
structure Digits where
  digits : List Char
  point : Int
deriving DecidableEq

namespace Digits

/- Digits without the zeros at their end. -/
def trim (digits : List Char) : List Char :=
  (digits.reverse.dropWhile (· == '0')).reverse

/- The digits of an integer, which are not all zeros. -/
def ofNat (n : Nat) (point : Int) : Digits :=
  ⟨trim (Nat.toDigits 10 n), point⟩

/- The power of ten as a quotient. -/
def power (e : Int) : Nat × Nat :=
  if 0 ≤ e then
    (Nat.pow 10 e.toNat, 1)
  else
    (1, Nat.pow 10 (-e).toNat)

/-
  The least power of ten above a positive quotient, as an
  exponent.
-/
def pointOf (num den : Nat) : Int :=
  if den ≤ num then
    (Nat.toDigits 10 (num / den)).length
  else
    let count : Int := (Nat.toDigits 10 (den / num)).length
    if num * (power (count - 1)).1 = den then
      2 - count
    else
      1 - count

end Digits

namespace Number

------------------------------------------------------------
-- Fewest digits
------------------------------------------------------------

/-
  The numbers that round to `x` lie between two bounds, here
  as numerators over one denominator, with `x` itself in the
  middle.  The bounds belong to them if the significand is
  even.
-/
structure Interval where
  low : Nat
  middle : Nat
  high : Nat
  den : Nat
  closed : Bool

/- The interval of the numbers that round to `x`. -/
def interval (x : Number) : Interval :=
  let m := x.significand
  let below :=
    if m = fractions ∧ x.exponent ≠ -1074 then 1 else 2
  let e := x.exponent - 2
  let scale := if 0 ≤ e then Nat.pow 2 e.toNat else 1
  { low := (4 * m - below) * scale
    middle := 4 * m * scale
    high := (4 * m + 2) * scale
    den := if 0 ≤ e then 1 else Nat.pow 2 (-e).toNat
    closed := m % 2 == 0 }

/-
  The point of the grid of `count` digits that lies in the
  interval, the nearer one if both neighbours of the middle
  do.
-/
def onGrid
    (around : Interval)
    (point : Int)
    (count : Nat) : Option Nat :=
  let (up, down) := Digits.power (point - count)
  let unit := around.den * up
  let middle := around.middle * down
  let floor := middle / unit
  let atLeastLow :=
    if around.closed then
      decide (around.low * down ≤ floor * unit)
    else
      decide (around.low * down < floor * unit)
  let atMostHigh :=
    if around.closed then
      decide ((floor + 1) * unit ≤ around.high * down)
    else
      decide ((floor + 1) * unit < around.high * down)
  if atLeastLow && atMostHigh then
    if 2 * (middle % unit) < unit then
      some floor
    else
      some (floor + 1)
  else if atLeastLow then
    some floor
  else if atMostHigh then
    some (floor + 1)
  else
    none

/- Digits of a grid point, which may be a new power of ten. -/
def gridDigits
    (point : Int)
    (count n : Nat) : Digits :=
  if n = Nat.pow 10 count then
    ⟨['1'], point + 1⟩
  else
    Digits.ofNat n point

/-
  The fewest digits that read back as a finite number other
  than zero; of those with that many, the nearest.
-/
def shortest (x : Number) : Digits :=
  let around := x.interval
  let point := Digits.pointOf around.middle around.den
  let found := (List.range 17).findSome? fun i =>
    (onGrid around point (i + 1)).map
      (gridDigits point (i + 1))
  found.getD ⟨['0'], 1⟩

end Number

end SparseTables

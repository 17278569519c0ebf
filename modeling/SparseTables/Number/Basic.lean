/-
  This file defines the numbers that cells and scalars hold:
  binary floating-point numbers of 64 bits, as a sign and a
  magnitude.

  The magnitude is the number's bit pattern without its sign.
  Magnitudes grow with absolute values, so the signed
  magnitude orders the numbers, and both zeros have the same
  one.

  Key definitions include:
    * `Number`
    * `Number.order`
    * `Number.isNaN`
    * `Number.significand`
    * `Number.exponent`
    * `Number.ratio`
-/

namespace SparseTables

------------------------------------------------------------
-- Numbers
------------------------------------------------------------

/- A sign and 63 bits of exponent and fraction. -/
structure Number where
  negative : Bool
  magnitude : Nat
  bounded : magnitude < 9223372036854775808
deriving DecidableEq

namespace Number

/- The number of fraction values for one exponent. -/
def fractions : Nat :=
  4503599627370496

/- The magnitude of the two infinities. -/
def infiniteMagnitude : Nat :=
  2047 * fractions

/- A magnitude, or infinity if it is beyond. -/
def saturated
    (negative : Bool)
    (magnitude : Nat) : Number :=
  ⟨negative, min infiniteMagnitude magnitude, by
    have h : infiniteMagnitude < 9223372036854775808 := by
      decide
    omega⟩

def zero : Number :=
  saturated false 0

def infinity : Number :=
  saturated false infiniteMagnitude

/- The number that is no number. -/
def nan : Number :=
  ⟨false, infiniteMagnitude + fractions / 2, by decide⟩

instance : Inhabited Number :=
  ⟨zero⟩

/- The number with the other sign. -/
def neg (x : Number) : Number :=
  { x with negative := !x.negative }

/- The number without its sign. -/
def absolute (x : Number) : Number :=
  { x with negative := false }

/- Give a number a sign if one is asked for. -/
def signed (negative : Bool) (x : Number) : Number :=
  if negative then x.neg else x

------------------------------------------------------------
-- Classes and order
------------------------------------------------------------

def isNaN (x : Number) : Bool :=
  decide (infiniteMagnitude < x.magnitude)

def isFinite (x : Number) : Bool :=
  decide (x.magnitude < infiniteMagnitude)

def isZero (x : Number) : Bool :=
  x.magnitude == 0

/-
  The signed magnitude.  It orders all numbers but NaN as
  their values do.
-/
def order (x : Number) : Int :=
  if x.negative then -(x.magnitude : Int) else x.magnitude

/- The same number, or two zeros. -/
def same (x y : Number) : Bool :=
  x.order == y.order

/- Both zeros become the positive one. -/
def normalized (x : Number) : Number :=
  if x.isZero then zero else x

------------------------------------------------------------
-- Exact values
------------------------------------------------------------

/- The integer that is scaled to give a finite number. -/
def significand (x : Number) : Nat :=
  if x.magnitude < fractions then
    x.magnitude
  else
    fractions + x.magnitude % fractions

/- The power of two that scales the significand. -/
def exponent (x : Number) : Int :=
  if x.magnitude < fractions then
    -1074
  else
    (x.magnitude / fractions : Nat) - 1075

/-
  The absolute value of a finite number as a quotient of two
  natural numbers.
-/
def ratio (x : Number) : Nat × Nat :=
  if 0 ≤ x.exponent then
    (x.significand * Nat.pow 2 x.exponent.toNat, 1)
  else
    (x.significand, Nat.pow 2 (-x.exponent).toNat)

/- Is the number finite and without a fraction? -/
def isWhole (x : Number) : Bool :=
  x.isFinite && x.ratio.1 % x.ratio.2 == 0

/- The integer part of a finite number. -/
def truncated (x : Number) : Int :=
  let whole : Int := (x.ratio.1 / x.ratio.2 : Nat)
  if x.negative then -whole else whole

end Number

end SparseTables

import SparseTables.Number.Rounding

/-
  This file defines pairs of numbers: a number and a small
  correction to it, which together are more exact than one
  number.

  The product of two pairs is made from rounded sums and
  products of numbers alone.  The numbers are split in two
  halves first, so that the products of halves are exact.

  Key definitions include:
    * `Pair`
    * `Pair.ofRatio`
    * `Pair.times`
    * `Pair.shift`
-/

namespace SparseTables

/- The number without the lower half of its significand. -/
def Number.upper (x : Number) : Number :=
  { x with
    magnitude := x.magnitude - x.magnitude % 67108864
    bounded := by
      have h := x.bounded
      omega }

/- A number and a correction to it. -/
structure Pair where
  high : Number
  low : Number
deriving DecidableEq

namespace Pair

/- The number nearest to a quotient, and to what it misses. -/
def ofRatio (num den : Nat) : Pair :=
  let high := Number.ofRatio false num den
  let value := high.ratio.1 * den
  let wanted := num * high.ratio.2
  let missing : Int := (wanted : Int) - value
  { high
    low :=
      Number.ofRatio (decide (missing < 0))
        missing.natAbs (den * high.ratio.2) }

/- Both numbers as one. -/
def toNumber (x : Pair) : Number :=
  x.high.add x.low

/- The product; what its first part misses is added last. -/
def times (x y : Pair) : Pair :=
  let upperX := x.high.upper
  let lowerX := x.high.sub upperX
  let upperY := y.high.upper
  let lowerY := y.high.sub upperY
  let first := upperX.mul upperY
  let middle := (upperX.mul lowerY).add (lowerX.mul upperY)
  let sum := first.add middle
  let missed :=
    ((first.sub sum).add middle).add (lowerX.mul lowerY)
  let crossed := (x.high.mul y.low).add (x.low.mul y.high)
  let correction := crossed.add missed
  let high := sum.add correction
  { high
    low := (sum.sub high).add correction }

------------------------------------------------------------
-- Powers of ten
------------------------------------------------------------

/- The pair nearest to a power of ten. -/
def power (n : Nat) (raised : Bool) : Pair :=
  if raised then
    ofRatio (Nat.pow 10 n) 1
  else
    ofRatio 1 (Nat.pow 10 n)

/- Multiply by one pair several times. -/
def repeated (x factor : Pair) : Nat → Pair
  | 0 => x
  | n + 1 => repeated (x.times factor) factor n

/- Move the decimal point: by hundreds, by tens, by ones. -/
def shift (x : Pair) (places : Int) : Pair :=
  let raised := decide (0 < places)
  let n := places.natAbs
  let hundreds := x.repeated (power 100 raised) (n / 100)
  let tens :=
    hundreds.repeated (power 10 raised) (n % 100 / 10)
  tens.repeated (power 1 raised) (n % 10)

end Pair

end SparseTables

import SparseTables.Number.Decimal
import SparseTables.Number.Pair
import SparseTables.Number.Shortest

/-
  This file defines how the store reads decimals as numbers
  and finds the digits of numbers.

  It computes with pairs of numbers.  What it reads can
  therefore miss the nearest number by one, and its last
  digit can be off by one.

  Key definitions include:
    * `Decimal.stored`
    * `Number.storedDigits`
-/

namespace SparseTables

------------------------------------------------------------
-- Reading
------------------------------------------------------------

/- An integer and a power of ten that scales it. -/
structure Scaled where
  digits : Nat
  scale : Int
deriving DecidableEq

namespace Scaled

/- An integer that has this many digits takes no more. -/
def full : Nat :=
  1844674407370955160

/- A full integer drops its last digits. -/
def cut (x : Scaled) : Scaled :=
  if h : full ≤ x.digits / 10 then
    cut ⟨x.digits / 10, x.scale + 1⟩
  else
    x
termination_by x.digits
decreasing_by
  unfold full at h
  omega

/- A positive power moves into the integer while it fits. -/
def raise (digits : Nat) : Nat → Scaled
  | 0 => ⟨digits, 0⟩
  | n + 1 =>
      if digits < 1844674407370954956 then
        raise (10 * digits) n
      else
        ⟨digits, n + 1⟩

/- A negative power takes the zeros at the end. -/
def lower (digits : Nat) : Nat → Scaled
  | 0 => ⟨digits, 0⟩
  | n + 1 =>
      if digits % 10 = 0 then
        lower (digits / 10) n
      else
        ⟨digits, -(n + 1 : Int)⟩

/- The same value with a smaller power. -/
def settle (x : Scaled) : Scaled :=
  if 0 ≤ x.scale then
    raise x.digits x.scale.toNat
  else
    lower x.digits (-x.scale).toNat

/- The integer as a pair, which must not exceed 64 bits. -/
def start (digits : Nat) : Pair :=
  let pair := Pair.ofRatio digits 1
  if Bounds.word64 ≤ pair.high.truncated then
    { pair with low := .zero }
  else
    pair

end Scaled

/- Powers of ten beyond this one make no difference. -/
def Decimal.farthest : Int :=
  10000

/- The number that the store reads. -/
def Decimal.stored (d : Decimal) : Number :=
  if d.digits = 0 then
    Number.signed d.negative .zero
  else
    let cut := Scaled.cut ⟨d.digits, d.scale⟩
    let scale :=
      max (-Decimal.farthest) (min Decimal.farthest cut.scale)
    let settled := Scaled.settle ⟨cut.digits, scale⟩
    let x :=
      ((Scaled.start settled.digits).shift
        settled.scale).toNumber
    Number.signed d.negative
      (if x.isNaN then .infinity else x)

------------------------------------------------------------
-- Writing
------------------------------------------------------------

/- A pair and the power of ten that was taken out of it. -/
structure Sighted where
  pair : Pair
  exponent : Int

namespace Sighted

/- A bound that ends shifting, times a power of ten. -/
def bound (e : Int) : Number :=
  let (up, down) := Digits.power e
  Number.ofRatio false (9223372036854774784 * up) down

/- Shift down while the number is above a bound. -/
def descend (step : Nat) (most : Number) :
    Nat → Sighted → Sighted
  | 0, x => x
  | fuel + 1, x =>
      if most.order < x.pair.high.order then
        descend step most fuel
          ⟨x.pair.times (Pair.power step false),
            x.exponent + step⟩
      else
        x

/- Shift up while the number is below a bound. -/
def ascend (step : Nat) (least : Number) :
    Nat → Sighted → Sighted
  | 0, x => x
  | fuel + 1, x =>
      if x.pair.high.order < least.order then
        ascend step least fuel
          ⟨x.pair.times (Pair.power step true),
            x.exponent - step⟩
      else
        x

/-
  Shift a positive number until its integer part has 18 or
  19 digits.  Fewer than 20 shifts of each kind are needed.
-/
def ofNumber (x : Number) : Sighted :=
  let start : Sighted := ⟨⟨x, .zero⟩, 0⟩
  if (bound 0).order < x.order then
    descend 1 (bound 0) 20
      (descend 10 (bound 10) 20
        (descend 100 (bound 100) 20 start))
  else
    ascend 1 (bound (-1)) 20
      (ascend 10 (bound (-11)) 20
        (ascend 100 (bound (-101)) 20 start))

/- The integer part. -/
def whole (x : Sighted) : Nat :=
  (x.pair.high.truncated + x.pair.low.truncated).toNat

end Sighted

/-
  The digits, at most `count` of them, that the store gives
  a finite number other than zero; a half goes up.
-/
def Number.storedDigits (count : Nat) (x : Number) : Digits :=
  let sighted := Sighted.ofNumber x.absolute
  let whole := sighted.whole
  let size := (Nat.toDigits 10 whole).length
  let unit := Nat.pow 10 (size - count)
  gridDigits (size + sighted.exponent) count
    ((2 * whole + unit) / (2 * unit))

end SparseTables

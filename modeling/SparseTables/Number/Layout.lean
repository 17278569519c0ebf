import SparseTables.Number.Stored

/-
  This file writes numbers.  A layout says when positional
  notation ends, whether a whole number shows a point, and
  how exponents and infinities look.

  Key definitions include:
    * `Layout`
    * `Number.display`
    * `Number.debug`
    * `Number.stored`
-/

namespace SparseTables

------------------------------------------------------------
-- Layouts
------------------------------------------------------------

/- The decisions of one way to write numbers. -/
structure Layout where
  /- Decimal exponents below this one are written out. -/
  least : Option Int
  /- Decimal exponents above this one are written out. -/
  most : Option Int
  /- Whole numbers end in `.0`. -/
  pointed : Bool
  /- A single digit before an exponent is followed by `.0`. -/
  pointedMantissa : Bool
  /- Exponents show a plus sign. -/
  plus : Bool
  /- The least count of exponent digits. -/
  exponentWidth : Nat
  /- The text of infinity. -/
  infinity : String
  /- A negative zero shows its sign. -/
  signedZero : Bool

/-
  Every number is written positionally, and a whole one
  without a point.
-/
def Layout.plain : Layout where
  least := none
  most := none
  pointed := false
  pointedMantissa := false
  plus := false
  exponentWidth := 1
  infinity := "inf"
  signedZero := true

/-
  Positional from 0.0001 to below 10^16, with a point in
  every positional number.
-/
def Layout.pointed16 : Layout where
  least := some (-4)
  most := some 15
  pointed := true
  pointedMantissa := false
  plus := false
  exponentWidth := 1
  infinity := "inf"
  signedZero := true

/-
  Positional from 0.0001 to below 10^15, with a point in
  every number and signed exponents of two digits.
-/
def Layout.stored15 : Layout where
  least := some (-4)
  most := some 14
  pointed := true
  pointedMantissa := true
  plus := true
  exponentWidth := 2
  infinity := "Inf"
  signedZero := false

namespace Layout

/- So many zeros. -/
def zeros (n : Nat) : List Char :=
  List.replicate n '0'

/- Digits and a point, without an exponent. -/
def positional (layout : Layout) (d : Digits) : List Char :=
  let count : Int := d.digits.length
  if d.point ≤ 0 then
    '0' :: '.' :: zeros (-d.point).toNat ++ d.digits
  else if count ≤ d.point then
    d.digits ++ zeros (d.point - count).toNat ++
      (if layout.pointed then ['.', '0'] else [])
  else
    d.digits.take d.point.toNat ++ '.' ::
      d.digits.drop d.point.toNat

/- One digit before the point, and an exponent. -/
def scientific (layout : Layout) (d : Digits) : List Char :=
  let e := d.point - 1
  let size := Nat.toDigits 10 e.natAbs
  let sign :=
    if e < 0 then ['-']
    else if layout.plus then ['+']
    else []
  let tail :=
    match d.digits.drop 1 with
    | [] => if layout.pointedMantissa then ['.', '0'] else []
    | rest => '.' :: rest
  d.digits.take 1 ++ tail ++ 'e' :: sign ++
    zeros (layout.exponentWidth - size.length) ++ size

/- The text of digits. -/
def write (layout : Layout) (d : Digits) : List Char :=
  let e := d.point - 1
  let small := layout.least.any fun least => decide (e < least)
  let large := layout.most.any fun most => decide (most < e)
  if small || large then
    layout.scientific d
  else
    layout.positional d

end Layout

------------------------------------------------------------
-- Numbers
------------------------------------------------------------

namespace Number

/- The text of a number whose digits are given. -/
def write
    (layout : Layout)
    (digits : Number → Digits)
    (x : Number) : String :=
  if x.isNaN then
    "NaN"
  else
    let body :=
      if !x.isFinite then
        layout.infinity.toList
      else if x.isZero then
        if layout.pointed then ['0', '.', '0'] else ['0']
      else
        layout.write (digits x)
    let shown :=
      x.negative && (layout.signedZero || !x.isZero)
    String.ofList (if shown then '-' :: body else body)

/- The fewest digits that read back, never an exponent. -/
def display (x : Number) : String :=
  x.write .plain shortest

/- The form in which error texts show a real cell. -/
def debug (x : Number) : String :=
  x.write .pointed16 shortest

/- The form in which the store turns a number into text. -/
def stored (x : Number) : String :=
  x.write .stored15 (storedDigits 15)

end Number

end SparseTables

import SparseTables.Number.Rounding

/-
  This file reads decimal text as numbers.

  A decimal is an optional sign, digits with an optional
  point among or beside them, and an optional exponent.  It
  denotes the nearest number to its exact value.

  Key definitions include:
    * `Decimal`
    * `Decimal.read`
    * `Decimal.toNumber`
    * `Number.ofText?`
    * `Number.ofSingleText?`
-/

namespace SparseTables

------------------------------------------------------------
-- Decimals
------------------------------------------------------------

/- All digits read as one integer, times a power of ten. -/
structure Decimal where
  negative : Bool
  digits : Nat
  scale : Int
  /- Neither a point nor an exponent was written. -/
  plain : Bool
deriving DecidableEq

namespace Decimal

/- The digits at the start of a text. -/
def span (cs : List Char) : List Char × List Char :=
  (cs.takeWhile Char.isDigit, cs.dropWhile Char.isDigit)

/- The value of digits. -/
def value (digits : List Char) : Nat :=
  digits.foldl (fun n c => 10 * n + (c.toNat - 48)) 0

/- An optional sign; true for a minus. -/
def sign : List Char → Bool × List Char
  | '-' :: rest => (true, rest)
  | '+' :: rest => (false, rest)
  | cs => (false, cs)

/- The exponent that must fill the rest of the text. -/
def exponent? : List Char → Option Int
  | [] => some 0
  | c :: rest =>
      if c == 'e' || c == 'E' then
        let (negative, digits) := sign rest
        if digits.isEmpty || !digits.all Char.isDigit then
          none
        else
          let size : Int := value digits
          some (if negative then -size else size)
      else
        none

/- A point and its digits, if there is a point. -/
def fraction : List Char → Option (List Char) × List Char
  | '.' :: rest =>
      ((some (span rest).1), (span rest).2)
  | cs => (none, cs)

/- Read a text as a whole. -/
def read (text : List Char) : Option Decimal :=
  let (negative, body) := sign text
  let (whole, afterWhole) := span body
  let (part, afterPart) := fraction afterWhole
  let places := part.getD []
  if whole.isEmpty && places.isEmpty then
    none
  else
    (exponent? afterPart).map fun e =>
      { negative
        digits := value (whole ++ places)
        scale := e - places.length
        plain := part.isNone && afterPart.isEmpty }

/-
  The exact value as a quotient, except that values far
  beyond every number become a huge or a zero quotient.
-/
def ratio (d : Decimal) : Nat × Nat :=
  if d.digits = 0 then
    (0, 1)
  else if 0 ≤ d.scale then
    if 400 ≤ d.scale then
      (Nat.pow 10 400, 1)
    else
      (d.digits * Nat.pow 10 d.scale.toNat, 1)
  else if d.scale + d.digits.log2 < -400 then
    (0, 1)
  else
    (d.digits, Nat.pow 10 (-d.scale).toNat)

/- The nearest number. -/
def toNumber (d : Decimal) : Number :=
  Number.ofRatio d.negative d.ratio.1 d.ratio.2

/- The integer that a decimal without point denotes. -/
def toInt (d : Decimal) : Int :=
  if d.negative then -(d.digits : Int) else d.digits

end Decimal

------------------------------------------------------------
-- Numbers as text
------------------------------------------------------------

namespace Number

/- The words for infinity and NaN, in any letter case. -/
def word? (text : List Char) : Option Number :=
  let (negative, body) := Decimal.sign text
  let word := String.ofList (body.map Char.toLower)
  if word == "inf" || word == "infinity" then
    some (signed negative infinity)
  else if word == "nan" then
    some (signed negative nan)
  else
    none

/- Read a decimal, an infinity or NaN. -/
def ofText? (text : String) : Option Number :=
  match Decimal.read text.toList with
  | some d => some d.toNumber
  | none => word? text.toList

/- The same, rounded to 32 bits. -/
def ofSingleText? (text : String) : Option Number :=
  match Decimal.read text.toList with
  | some d =>
      some (ofSingleRatio d.negative d.ratio.1 d.ratio.2)
  | none => word? text.toList

end Number

end SparseTables

import SparseTables.Cell
import SparseTables.Number.Stored

/-
  This file defines how the store orders cells, and how it
  turns texts into numbers and numbers into texts.

  Nulls come first, then numbers by value, then texts by
  their bytes, then blobs.  A numeric column takes a text
  that spells a number, with blanks around it, as that
  number.

  Key definitions include:
    * `Cell.ofNumeral`
    * `Cell.storedText?`
    * `Cell.compare`
-/

namespace SparseTables

namespace Cell

------------------------------------------------------------
-- Texts and numbers
------------------------------------------------------------

/- The blanks that may surround a number. -/
def isPadding (c : Char) : Bool :=
  c == ' ' || decide (9 ≤ c.toNat ∧ c.toNat ≤ 13)

/- The text without blanks at its ends. -/
def trimmed (text : String) : List Char :=
  ((text.toList.dropWhile isPadding).reverse.dropWhile
    isPadding).reverse

/- A whole number as an integer, if 64 bits hold it. -/
def integral (x : Number) : Cell :=
  if x.isWhole &&
      decide (Number.leastInt64 < x.truncated ∧
        x.truncated < Number.mostInt64) then
    .integer x.truncated
  else
    .real x

/- The form of a decimal in a numeric column. -/
def ofDecimal (d : Decimal) : Cell :=
  if d.plain &&
      decide (Number.leastInt64 ≤ d.toInt ∧
        d.toInt ≤ Number.mostInt64) then
    .integer d.toInt
  else
    integral d.stored

/-
  A text in a numeric column: the number that it spells, or
  the text itself.
-/
def ofNumeral (text : String) : Cell :=
  match Decimal.read (trimmed text) with
  | some d => ofDecimal d
  | none => .text text

/- A cell in a numeric column. -/
def numeric : Cell → Cell
  | .text s => ofNumeral s
  | cell => cell

/- The text that the store makes of a cell. -/
def storedText? : Cell → Option String
  | .integer i => some (toString i)
  | .real x => some x.stored
  | .text s => some s
  | _ => none

/- A cell in a text column. -/
def textual (cell : Cell) : Cell :=
  match cell with
  | .integer _ | .real _ =>
      (cell.storedText?.map Cell.text).getD .null
  | other => other

------------------------------------------------------------
-- Order
------------------------------------------------------------

/- The place of a kind of cells among the kinds. -/
def rank : Cell → Nat
  | .null => 0
  | .integer _ | .real _ => 1
  | .text _ => 2
  | .blob _ => 3

/- The order of cells. -/
def compare (left right : Cell) : Ordering :=
  match left, right with
  | .integer i, .integer j => Ord.compare i j
  | .integer i, .real x => (x.compareInt i).swap
  | .real x, .integer i => x.compareInt i
  | .real x, .real y => Ord.compare x.order y.order
  | .text s, .text t => Ord.compare s t
  | .blob bytes, .blob others =>
      Ord.compare
        (bytes.map UInt8.toNat)
        (others.map UInt8.toNat)
  | _, _ => Ord.compare left.rank right.rank

end Cell

end SparseTables

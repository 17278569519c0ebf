import SparseTables.Cell.Comparison
import SparseTables.Plan.Basic
import SparseTables.Word

/-
  This file defines how the store compares a column with a
  parameter, and the patterns of `LIKE`.

  A parameter takes the kind of the column: in a number
  column a text that spells a number counts as that number,
  and in a text column a number counts as its text.  Null
  compares with nothing.

  Key definitions include:
    * `Operator`
    * `Operator.ofText?`
    * `Pattern.fitsFrom`
    * `Pattern.accepts`
    * `Operator.holds`
-/

namespace SparseTables

------------------------------------------------------------
-- Operators
------------------------------------------------------------

/- The comparisons that the store knows. -/
inductive Operator where
  | equal
  | unequal
  | greater
  | atLeast
  | less
  | atMost
  | like
deriving DecidableEq

namespace Operator

/- The operator that a text spells in ASCII letters. -/
def ofText? (text : String) : Option Operator :=
  match Word.upper text with
  | "=" => some equal
  | "<>" => some unequal
  | ">" => some greater
  | ">=" => some atLeast
  | "<" => some less
  | "<=" => some atMost
  | "LIKE" => some like
  | _ => none

/- Does an order of two sides satisfy a comparison? -/
def admits : Operator → Ordering → Bool
  | equal, order => order == .eq
  | unequal, order => order != .eq
  | greater, order => order == .gt
  | atLeast, order => order != .lt
  | less, order => order == .lt
  | atMost, order => order != .gt
  | like, _ => false

end Operator

------------------------------------------------------------
-- Patterns
------------------------------------------------------------

namespace Pattern

/- The most bytes that a pattern may have. -/
def mostBytes : Nat :=
  50000

/- The same character but for the case of ASCII letters. -/
def sameChar (c d : Char) : Bool :=
  c.toLower == d.toLower

/-
  Where a pattern fits a whole text: one answer for each
  place in the text to start from, the end included.  A
  percent sign fits any characters, an underscore fits one.
-/
def fitsFrom : List Char → List Char → List Bool
  | [], text => text.map (fun _ => false) ++ [true]
  | p :: pattern, text =>
      let later := fitsFrom pattern text
      if p == '%' then
        later.foldr
          (fun here found =>
            (here || found.headD false) :: found)
          []
      else
        text.zipWith
          (fun c fits => (p == '_' || sameChar p c) && fits)
          later.tail ++ [false]

/- Does a pattern fit a whole text? -/
def fits (pattern text : List Char) : Bool :=
  (fitsFrom pattern text).headD false

/- Texts end at a null character. -/
def shown (text : String) : List Char :=
  text.toList.takeWhile fun c => c != '\x00'

/- Does a pattern fit a text? -/
def accepts (pattern text : String) : Bool :=
  fits (shown pattern) (shown text)

end Pattern

------------------------------------------------------------
-- Comparison
------------------------------------------------------------

/- Is the column for texts? -/
def Expr.isTextual : Expr → Bool
  | value _ .text => true
  | _ => false

/- A parameter in the kind of the column beside it. -/
def Expr.coerce (left : Expr) (param : Cell) : Cell :=
  if left.isTextual then param.textual else param.numeric

/-
  Does a comparison hold between the cell of a column and a
  parameter?
-/
def Operator.holds
    (op : Operator)
    (left : Expr)
    (cell param : Cell) : Bool :=
  if cell.isNull || param.isNull then
    false
  else if op = .like then
    match param.storedText?, cell.storedText? with
    | some pattern, some text => Pattern.accepts pattern text
    | _, _ => false
  else
    op.admits (cell.compare (left.coerce param))

end SparseTables

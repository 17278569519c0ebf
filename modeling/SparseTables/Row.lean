import SparseTables.Error

/-
  This file defines rows of cells with typed access to their
  columns, and sets of rows that are read front to back.

  Key definitions include:
    * `Row`
    * `Row.integer`
    * `Row.number`
    * `Row.text`
    * `RowSet`
    * `RowSet.next`
-/

namespace SparseTables

------------------------------------------------------------
-- Rows
------------------------------------------------------------

/- The cells of one row. -/
structure Row where
  cells : List Cell
deriving DecidableEq, Inhabited

namespace Row

/- The cell of a column; columns count from zero. -/
def cell (row : Row) (column : Nat) : Except Error Cell :=
  match row.cells[column]? with
  | some found => .ok found
  | none => .error (.store (.columnRange column))

def isNull (row : Row) (column : Nat) : Except Error Bool :=
  (row.cell column).map Cell.isNull

/-
  An integer, or a real without fraction kept within 64
  bits.
-/
def integer (row : Row) (column : Nat) : Except Error Int := do
  let found ← row.cell column
  match found with
  | .integer i => .ok i
  | .real x =>
      if x.isWhole then
        .ok x.toInt64
      else
        .error (.store (.notInteger column found))
  | _ => .error (.store (.notInteger column found))

/- A real, or the nearest number to an integer. -/
def number
    (row : Row)
    (column : Nat) : Except Error Number := do
  let found ← row.cell column
  match found with
  | .integer i => .ok (Number.ofInt i)
  | .real x => .ok x
  | _ => .error (.store (.notNumber column found))

/- An integer as a truth value. -/
def bool (row : Row) (column : Nat) : Except Error Bool :=
  (row.integer column).map fun i => i != 0

def text (row : Row) (column : Nat) : Except Error String := do
  let found ← row.cell column
  match found with
  | .text s => .ok s
  | _ => .error (.store (.notText column found))

/- The scalar of a column, if its cell holds one. -/
def scalar
    (row : Row)
    (column : Nat) : Except Error (Option Scalar) :=
  (row.cell column).map Cell.scalar?

end Row

------------------------------------------------------------
-- Row sets
------------------------------------------------------------

/- Column names and the rows not yet read. -/
structure RowSet where
  columns : List String
  rows : List Row
deriving DecidableEq, Inhabited

namespace RowSet

/- The first row, and what remains. -/
def next (set : RowSet) : Option Row × RowSet :=
  (set.rows.head?, { set with rows := set.rows.drop 1 })

end RowSet

end SparseTables

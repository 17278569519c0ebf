import SparseTables.Exchange
import SparseTables.Query.Basic

/-
  This file puts the rows that a query leaves unordered into
  a definite order: by their cells, the absent ones first,
  then numbers, then texts.

  Key definitions include:
    * `RowOrder.compare`
    * `ResultSet.arrange`
-/

namespace SparseTables

namespace RowOrder

/- The order of two cells. -/
def compareCells : Option Scalar → Option Scalar → Ordering
  | none, none => .eq
  | none, some _ => .lt
  | some _, none => .gt
  | some (.number x), some (.number y) =>
      Ord.compare x.order y.order
  | some (.number _), some (.text _) => .lt
  | some (.text _), some (.number _) => .gt
  | some (.text s), some (.text t) => Ord.compare s t

/- The order of two rows, cell by cell. -/
def compare :
    List (Option Scalar) → List (Option Scalar) → Ordering
  | [], [] => .eq
  | [], _ :: _ => .lt
  | _ :: _, [] => .gt
  | cell :: rest, other :: others =>
      (compareCells cell other).then (compare rest others)

/- Rows in order. -/
def sort
    (rows : List (List (Option Scalar))) :
    List (List (Option Scalar)) :=
  rows.mergeSort fun left right => compare left right != .gt

/- The cells of some columns. -/
def cellsAt
    (columns : List Nat)
    (row : List (Option Scalar)) : List (Option Scalar) :=
  columns.map fun column => row[column]?.join

/- Runs of rows that have the same cells in some columns. -/
def runs
    (columns : List Nat)
    (rows : List (List (Option Scalar))) :
    List (List (List (Option Scalar))) :=
  rows.splitBy fun left right =>
    compare (cellsAt columns left) (cellsAt columns right) == .eq

end RowOrder

/-
  Rows of a query in order, but not moved beyond rows from
  which the query's own order separates them.
-/
def ResultSet.arrange
    (query : Select)
    (found : ResultSet) : ResultSet :=
  let columns := query.orders.filterMap fun order =>
    query.columns.idxOf? order.field
  { found with
    rows := (RowOrder.runs columns found.rows).flatMap
      RowOrder.sort }

end SparseTables

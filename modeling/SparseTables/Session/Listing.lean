import SparseTables.Program

/-
  This file lists everything in the store, one statement for
  each kind of row.

  Key definitions include:
    * `Listing`
    * `Listing.fetch`
-/

namespace SparseTables

/- All rows of the store in their orders. -/
structure Listing where
  tables : List Table
  attributes : List Attribute
  values : List Value
  items : List ItemRow
  slots : List Slot

/- Ask the store for all rows. -/
def Listing.fetch : Program Listing := do
  let tables ← Program.run .allTables
  let attributes ← Program.run .allAttributes
  let values ← Program.run .allValues
  let items ← Program.run .allItems
  let slots ← Program.run .allSlots
  pure { tables, attributes, values, items, slots }

end SparseTables

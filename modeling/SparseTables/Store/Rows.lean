import SparseTables.Cell

/-
  This file defines the rows of the store.

  Tables, attributes and values are dictionaries.  An item is
  a row of a table, found by one value, its key.  A slot gives
  an item a value for an attribute.

  Key definitions include:
    * `Table`
    * `Attribute`
    * `Value`
    * `ItemRow`
    * `Slot`
-/

namespace SparseTables

/- A table, and whether the keys of its items are numbers. -/
structure Table where
  id : Int
  name : String
  numeric : Bool
deriving DecidableEq

/- An attribute of one table, for numbers or for texts. -/
structure Attribute where
  id : Int
  tableId : Int
  name : String
  numeric : Bool
deriving DecidableEq

/- A scalar that keys or slots refer to. -/
structure Value where
  id : Int
  content : Scalar
deriving DecidableEq

/- An item; its times are kept in the form of cells. -/
structure ItemRow where
  id : Int
  tableId : Int
  valueId : Int
  created : Cell
  modified : Cell
deriving DecidableEq

/- The value of an item for an attribute. -/
structure Slot where
  itemId : Int
  attributeId : Int
  valueId : Int
deriving DecidableEq

end SparseTables

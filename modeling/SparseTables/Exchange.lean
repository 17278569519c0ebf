import SparseTables.NameMap
import SparseTables.Scalar

/-
  This file defines what callers exchange with a session:
  requests to change and to read items, and the answers.

  Key definitions include:
    * `Define`
    * `GetRequest`
    * `GetResponse`
    * `SchemaResponse`
    * `ResultSet`
-/

namespace SparseTables

/-
  Set or erase attributes of the item under a key, one after
  another.  An entry without a scalar erases.
-/
structure Define where
  table : String
  key : Scalar
  entries : List (String × Option Scalar)
deriving DecidableEq

/- Read the attributes of the items under some keys. -/
structure GetRequest where
  table : String
  keys : List Scalar
deriving DecidableEq

/- The attributes of one item. -/
abbrev Metadata :=
  NameMap Scalar

/- One entry a key; there may be no item under it. -/
structure GetResponse where
  items : List (Option Metadata)
deriving DecidableEq

/- The attribute names of tables. -/
structure SchemaResponse where
  tables : NameMap (List String)
deriving DecidableEq

/- The rows of a query, without scalar where null. -/
structure ResultSet where
  columns : List String
  rows : List (List (Option Scalar))
deriving DecidableEq

end SparseTables

import SparseTables.Query.Basic

/-
  This file defines plans.  A plan starts from all items,
  joins them with the values of their keys and attributes and
  with the search rows of texts, filters the joined rows, and
  projects, orders and limits them.

  Every join has an alias, by which the other parts of the
  plan refer to it.

  Key definitions include:
    * `Expr`
    * `Join`
    * `Predicate`
    * `OrderKey`
    * `Plan`
-/

namespace SparseTables

------------------------------------------------------------
-- Expressions
------------------------------------------------------------

/- The columns of items. -/
inductive ItemColumn where
  | id
  | created
  | modified
deriving DecidableEq

/- The columns of values: one for numbers, one for texts. -/
inductive ValueColumn where
  | number
  | text
deriving DecidableEq

/- The column that holds scalars of a kind. -/
def ValueColumn.ofKind (numeric : Bool) : ValueColumn :=
  if numeric then number else text

/- What a plan computes from a joined row. -/
inductive Expr where
  | null
  | countAll
  | item (column : ItemColumn)
  | value (label : String) (column : ValueColumn)
deriving DecidableEq

------------------------------------------------------------
-- Joins
------------------------------------------------------------

/- The alias of the items. -/
def itemAlias : String :=
  "i"

/- The alias of the values of keys. -/
def keyAlias : String :=
  "bv"

/-
  One join.  A row without a key or without a search row is
  dropped; one without a value for an attribute stays.
-/
inductive Join where
  /- The value of the item's key. -/
  | key
  /- The item's value for an attribute. -/
  | attr (label : String) (id : Int)
  /- The search row of the value that a source refers to. -/
  | search (label source : String)
deriving DecidableEq

/- The alias of a join. -/
def Join.label : Join → String
  | key => keyAlias
  | attr label _ => label
  | search label _ => label

/- The alias of a search. -/
def Join.searchAlias? : Join → Option String
  | search label _ => some label
  | _ => none

------------------------------------------------------------
-- Predicates and orders
------------------------------------------------------------

/- Conditions of one group. -/
inductive Predicate where
  | never
  | compare (left : Expr) (op param : String)
  | matches (label param : String)
deriving DecidableEq

/- What rows must satisfy: a table, and groups. -/
structure Filter where
  table : Option Int
  groups : List (Combine × List Predicate)
deriving DecidableEq

/- What rows are ordered by. -/
inductive OrderKey where
  /- An output column, by its alias. -/
  | output (label : String) (descending : Bool)
  /- The rank of a search, by its alias. -/
  | rank (label : String)
deriving DecidableEq

------------------------------------------------------------
-- Plans
------------------------------------------------------------

/- A compiled query. -/
structure Plan where
  outputs : List (Expr × String)
  joins : List Join
  filter : Filter
  orders : List OrderKey
  limit : Option Nat
deriving DecidableEq

namespace Plan

/- The aliases of the items and of all joins. -/
def aliases (plan : Plan) : List String :=
  itemAlias :: plan.joins.map Join.label

/- The names of the columns that the plan gives. -/
def columns (plan : Plan) : List String :=
  plan.outputs.map Prod.snd

end Plan

end SparseTables

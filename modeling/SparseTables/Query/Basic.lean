import SparseTables.NameMap
import SparseTables.Scalar

/-
  This file defines queries: the columns of one table's items
  that satisfy groups of criteria, in some order and up to
  some count.

  Key definitions include:
    * `Criterion`
    * `Combine`
    * `Group`
    * `Order`
    * `Select`
    * `Select.filter`
    * `Select.bind`
-/

namespace SparseTables

------------------------------------------------------------
-- Parts of a query
------------------------------------------------------------

/- A column compared with a parameter. -/
structure Criterion where
  name : String
  op : String
  param : String
deriving DecidableEq

/- How the criteria of a group are combined. -/
inductive Combine where
  | all
  | any
deriving DecidableEq

namespace Combine

/- The word between combined criteria. -/
def keyword : Combine → String
  | all => "AND"
  | any => "OR"

end Combine

/-
  Criteria combined in one way.  The groups of a query must
  all hold.
-/
structure Group where
  combine : Combine
  criteria : List Criterion
deriving DecidableEq

/- A column that orders the rows. -/
structure Order where
  field : String
  descending : Bool
deriving DecidableEq

------------------------------------------------------------
-- Queries
------------------------------------------------------------

/-
  A query on one table.  A limit of zero is no limit, and the
  names of parameters begin with `@`.
-/
structure Select where
  columns : List String
  source : String
  groups : List Group
  orders : List Order
  limit : Nat
  params : NameMap Scalar
deriving DecidableEq

namespace Select

/- The query on a table that selects nothing yet. -/
def on (source : String) : Select where
  columns := []
  source := source
  groups := []
  orders := []
  limit := 0
  params := .empty

def column (query : Select) (name : String) : Select :=
  { query with columns := query.columns ++ [name] }

/- Add a criterion at the end of the last group. -/
def addToLast (criterion : Criterion) :
    List Group → List Group
  | [] => [⟨.all, [criterion]⟩]
  | [last] =>
      [{ last with criteria := last.criteria ++ [criterion] }]
  | first :: rest => first :: addToLast criterion rest

/- Add a criterion, opening a group if there is none. -/
def filter (query : Select) (criterion : Criterion) : Select :=
  { query with groups := addToLast criterion query.groups }

def group (query : Select) (group : Group) : Select :=
  { query with groups := query.groups ++ [group] }

def order
    (query : Select)
    (field : String)
    (descending : Bool) : Select :=
  { query with orders := query.orders ++ [⟨field, descending⟩] }

def limitTo (query : Select) (limit : Nat) : Select :=
  { query with limit := limit }

/- A parameter's name with its `@`. -/
def paramName (name : String) : String :=
  if name.toList.head? = some '@' then name else "@" ++ name

/- Set the value of a parameter. -/
def bind
    (query : Select)
    (name : String)
    (value : Scalar) : Select :=
  { query with params := query.params.insert (paramName name) value }

/- The criteria of all groups. -/
def criteria (query : Select) : List Criterion :=
  query.groups.flatMap Group.criteria

end Select

end SparseTables

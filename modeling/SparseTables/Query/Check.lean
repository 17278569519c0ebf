import SparseTables.Bounds
import SparseTables.Error
import SparseTables.Query.Basic

/-
  This file checks names, operators and parameters, and the
  shape of a whole query before it is compiled.

  Key definitions include:
    * `Check.table`
    * `Check.column`
    * `Check.parameter`
    * `Check.operator`
    * `Check.dictionary`
    * `Check.storable`
    * `Select.check`
-/

namespace SparseTables

------------------------------------------------------------
-- Single names
------------------------------------------------------------

namespace Check

/- Accept, or refuse for a reason. -/
def that
    (holds : Bool)
    (fault : ValidationFault) : Except Error Unit :=
  if holds then .ok () else .error (.validation fault)

def table (name context : String) : Except Error Unit :=
  that (Word.isWord name) (.tableName name context)

def column (name context : String) : Except Error Unit :=
  that (Word.isWord name) (.columnName name context)

def parameter (name context : String) : Except Error Unit :=
  that (Word.isParameter name) (.parameterName name context)

def operator (text context : String) : Except Error Unit :=
  that (Word.isOperator text) (.operator text context)

/- A name about to enter a dictionary must not be reserved. -/
def dictionary (kind name : String) : Except Error Unit := do
  that (Word.isWord name) (.dictionaryName kind name)
  that (!Word.isReserved name) (.dictionaryReserved kind name)

def storable (value : Scalar) : Except Error Unit :=
  that value.isStorable .notStorable

/- An integer that a number holds exactly. -/
def exact (i : Int) : Except Error Scalar :=
  match Scalar.exactInt? i with
  | some value => .ok value
  | none => .error (.validation (.inexact i))

/- The three parts of a criterion. -/
def criterion
    (part : Criterion)
    (context : String) : Except Error Unit := do
  column part.name context
  operator part.op context
  parameter part.param context

end Check

------------------------------------------------------------
-- Queries
------------------------------------------------------------

namespace Select

/- The shape that a query must have to be compiled. -/
def check (query : Select) : Except Error Unit := do
  Check.that (!query.source.isEmpty) .fromMissing
  Check.that (!query.columns.isEmpty) .selectEmpty
  Check.table query.source "FROM"
  Check.that (Bounds.isSigned64 query.limit)
    (.limitRange query.limit)
  query.columns.forM fun name => Check.column name "SELECT"
  query.orders.forM fun order =>
    Check.that (query.columns.contains order.field)
      (.orderNotSelected order.field)
  query.criteria.forM fun part => Check.criterion part "WHERE"

end Select

end SparseTables

import SparseTables.Plan.Basic
import SparseTables.Word

/-
  This file writes plans as statements.

  Key definitions include:
    * `Plan.text`
-/

namespace SparseTables

def ItemColumn.name : ItemColumn → String
  | id => "id"
  | created => "created"
  | modified => "lastmodified"

def ValueColumn.name : ValueColumn → String
  | number => "numberValue"
  | text => "stringValue"

def Expr.render : Expr → String
  | null => "NULL"
  | countAll => "COUNT(*)"
  | item column => itemAlias ++ "." ++ column.name
  | value label column => label ++ "." ++ column.name

def Join.render : Join → String
  | key =>
      "JOIN bvalues AS " ++ keyAlias ++ " ON " ++ keyAlias ++
        ".id = " ++ itemAlias ++ ".valueid"
  | attr label id =>
      "LEFT OUTER JOIN item_values AS " ++ label ++ " ON " ++
        label ++ ".itemid = " ++ itemAlias ++ ".id AND " ++
        label ++ ".nameid = " ++ toString id
  | search label source =>
      "JOIN bvalues_fts AS " ++ label ++ " ON " ++ label ++
        ".rowid = " ++ source ++ ".valueid"

/- The condition that no row satisfies. -/
def neverText : String :=
  "1 = 0"

/- Operators are written in capitals. -/
def Predicate.render : Predicate → String
  | never => neverText
  | compare left op param =>
      left.render ++ " " ++ Word.upper op ++ " " ++ param
  | .matches label param =>
      label ++ ".bvalues_fts MATCH " ++ param

namespace Filter

def renderTable : Option Int → String
  | some id => itemAlias ++ ".tableid = " ++ toString id
  | none => neverText

def renderGroup
    (group : Combine × List Predicate) : String :=
  "(" ++
    (" " ++ group.1.keyword ++ " ").intercalate
      (group.2.map Predicate.render) ++
    ")"

def render (filter : Filter) : String :=
  "\nAND ".intercalate
    (renderTable filter.table :: filter.groups.map renderGroup)

end Filter

def OrderKey.render : OrderKey → String
  | output label descending =>
      "\"" ++ label ++ "\" " ++
        (if descending then "DESC" else "ASC")
  | rank label => label ++ ".rank ASC"

namespace Plan

def renderOutput (output : Expr × String) : String :=
  output.1.render ++ " AS \"" ++ output.2 ++ "\""

def renderOrders : List OrderKey → String
  | [] => ""
  | orders =>
      "\nORDER BY " ++
        ", ".intercalate (orders.map OrderKey.render)

def renderLimit : Option Nat → String
  | none => ""
  | some limit => "\nLIMIT " ++ toString limit

/- The statement of a plan. -/
def text (plan : Plan) : String :=
  "SELECT\n" ++
    ",\n".intercalate (plan.outputs.map renderOutput) ++
    "\nFROM items AS " ++ itemAlias ++
    String.join (plan.joins.map fun join =>
      "\n" ++ join.render) ++
    "\nWHERE " ++ plan.filter.render ++
    renderOrders plan.orders ++
    renderLimit plan.limit

end Plan

end SparseTables

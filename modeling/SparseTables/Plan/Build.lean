import SparseTables.Plan.Aliases
import SparseTables.Plan.Basic
import SparseTables.Store.Rows
import SparseTables.Word

/-
  This file turns queries into plans.

  Every attribute that a query mentions has one join, so an
  item without a value for it is still found.  What the
  dictionaries do not know is null as an output and false as
  a condition.

  Key definitions include:
    * `Select.referenced`
    * `Scope`
    * `Scope.expr?`
    * `Plan.build`
-/

namespace SparseTables

/- Does a column mean the keys of items? -/
def Word.isKey (column : String) : Bool :=
  Word.sameLetters column "value"

/- The columns of a query, by their first mentions. -/
def Select.referenced (query : Select) : List String :=
  (query.columns ++ query.criteria.map Criterion.name ++
    query.orders.map Order.field).eraseDups

------------------------------------------------------------
-- Scopes
------------------------------------------------------------

/- A column that is joined as an attribute. -/
structure Bound where
  column : String
  known : Attribute
  label : String
deriving DecidableEq

/- What the columns of a query stand for. -/
structure Scope where
  table : Option Table
  bound : List Bound
deriving DecidableEq

namespace Scope

/- The attribute that a column stands for. -/
def find? (scope : Scope) (column : String) : Option Bound :=
  scope.bound.find? fun bound => bound.column == column

/- The pseudo-columns. -/
def pseudo? (scope : Scope) (column : String) : Option Expr :=
  let word := Word.lower column
  if word == "value" then
    scope.table.map fun table =>
      .value keyAlias (.ofKind table.numeric)
  else if word == "id" then some (.item .id)
  else if word == "created" then some (.item .created)
  else if word == "lastmodified" then some (.item .modified)
  else none

/- What a column stands for, if anything. -/
def expr? (scope : Scope) (column : String) : Option Expr :=
  match scope.find? column with
  | some bound =>
      some (.value bound.label (.ofKind bound.known.numeric))
  | none => scope.pseudo? column

/- What a selected column gives. -/
def output (scope : Scope) (column : String) : Expr :=
  if Word.sameLetters column "count" then
    .countAll
  else
    (scope.expr? column).getD .null

/-
  Where the value of a searched column is referred to; only
  texts can be searched by key.
-/
def source? (scope : Scope) (column : String) : Option String :=
  if Word.isKey column then
    match scope.table with
    | some table =>
        if table.numeric then none else some itemAlias
    | none => none
  else
    (scope.find? column).map Bound.label

end Scope

------------------------------------------------------------
-- Parts of plans
------------------------------------------------------------

namespace Plan

/- The aliases of joins, and the joins so far. -/
structure Joined where
  aliases : Aliases
  joins : List Join

/- Add a join under an alias for a base. -/
def Joined.add
    (joined : Joined)
    (base : String)
    (join : String → Join) : String × Joined :=
  let (label, aliases) := joined.aliases.claim base
  (label, ⟨aliases, joined.joins ++ [join label]⟩)

/- Join the values of keys if a known table's key is meant. -/
def joinKey
    (query : Select)
    (table : Option Table)
    (joined : Joined) : Joined :=
  if table.isSome && query.referenced.any Word.isKey then
    (joined.add keyAlias fun _ => .key).2
  else
    joined

/- Join the attributes that columns stand for. -/
def joinAttributes
    (joined : Joined) :
    List (String × Attribute) → List Bound × Joined
  | [] => ([], joined)
  | (column, known) :: rest =>
      let (label, joined) :=
        joined.add ("iv" ++ Word.clean column) fun label =>
          .attr label known.id
      let (bound, joined) := joinAttributes joined rest
      (⟨column, known, label⟩ :: bound, joined)

/- One criterion; a search adds a join. -/
def predicate
    (scope : Scope)
    (joined : Joined)
    (part : Criterion) : Predicate × Joined :=
  if Word.sameLetters part.op "matches" then
    match scope.source? part.name with
    | none => (.never, joined)
    | some source =>
        let (label, joined) :=
          joined.add ("fts" ++ Word.clean part.name) fun label =>
            .search label source
        (.matches label part.param, joined)
  else
    match scope.expr? part.name with
    | some left => (.compare left part.op part.param, joined)
    | none => (.never, joined)

/- The criteria of a group, one after another. -/
def predicates
    (scope : Scope)
    (joined : Joined) :
    List Criterion → List Predicate × Joined
  | [] => ([], joined)
  | part :: rest =>
      let (first, joined) := predicate scope joined part
      let (more, joined) := predicates scope joined rest
      (first :: more, joined)

/- The groups, without those that have no criteria. -/
def groups
    (scope : Scope)
    (joined : Joined) :
    List Group → List (Combine × List Predicate) × Joined
  | [] => ([], joined)
  | group :: rest =>
      if group.criteria.isEmpty then
        groups scope joined rest
      else
        let (first, joined) :=
          predicates scope joined group.criteria
        let (more, joined) := groups scope joined rest
        ((group.combine, first) :: more, joined)

/- Selected columns with their aliases. -/
def project
    (scope : Scope)
    (aliases : Aliases) : List String → List (Expr × String)
  | [] => []
  | column :: rest =>
      let (label, aliases) :=
        aliases.claim (Word.clean column)
      (scope.output column, label) ::
        project scope aliases rest

/- Orders by selected columns; the first of a name counts. -/
def outputOrders
    (query : Select)
    (outputs : List (Expr × String)) : List OrderKey :=
  let aliases := query.columns.zip (outputs.map Prod.snd)
  query.orders.filterMap fun order =>
    (aliases.lookup order.field).map fun label =>
      .output label order.descending

/- Without orders, the first search ranks the rows. -/
def rankOrders (joins : List Join) : List OrderKey :=
  match joins.findSome? Join.searchAlias? with
  | some label => [.rank label]
  | none => []

------------------------------------------------------------
-- Plans
------------------------------------------------------------

/-
  The plan of a query on a table, if the table is known, with
  the known attributes among its columns.
-/
def build
    (query : Select)
    (table : Option Table)
    (known : List (String × Attribute)) : Plan :=
  let joined := joinKey query table ⟨.empty, []⟩
  let (bound, joined) := joinAttributes joined known
  let scope : Scope := ⟨table, bound⟩
  let outputs := project scope .empty query.columns
  let (groups, joined) := groups scope joined query.groups
  { outputs
    joins := joined.joins
    filter := ⟨table.map Table.id, groups⟩
    orders :=
      if query.orders.isEmpty then
        rankOrders joined.joins
      else
        outputOrders query outputs
    limit :=
      if query.limit = 0 then none else some query.limit }

end Plan

end SparseTables

import SparseTables.Plan.Build
import SparseTables.Proofs.Cell
import SparseTables.Proofs.Contents.Views
import SparseTables.Query.Check

/-
  This file defines what queries ask for.

  A record is an item with its key, its times and its
  attributes.  A query selects the records of a table that
  satisfy all its groups, orders and limits them, and shows
  their columns.

  Main declarations:
    * `Record`
    * `Record.cell`
    * `Record.satisfies`
    * `Record.compareBy`
    * `Contents.records`
    * `Contents.Answers`
    * `Select.Plain`
    * `Contents.Suits`
-/

namespace SparseTables

------------------------------------------------------------
-- Records
------------------------------------------------------------

/- An item as callers know it. -/
structure Record where
  id : Int
  key : Option Scalar
  created : Cell
  modified : Cell
  metadata : Metadata
deriving DecidableEq

/- The cell of a scalar, if there is one. -/
def Cell.ofOption (content : Option Scalar) : Cell :=
  (content.map Scalar.cell).getD .null

namespace Record

/-
  The cell of a column.  A reserved word is never the name of
  an attribute.
-/
def cell (record : Record) (column : String) : Cell :=
  let word := Word.lower column
  if word = "value" then .ofOption record.key
  else if word = "id" then .integer record.id
  else if word = "created" then record.created
  else if word = "lastmodified" then record.modified
  else if Word.isReserved column then .null
  else .ofOption (record.metadata.get? column)

/-
  Does a record meet a criterion?  It must have the column,
  and the parameter must be set.
-/
def meets
    (params : NameMap Scalar)
    (record : Record)
    (part : Criterion) : Bool :=
  match Operator.ofText? part.op, params.get? part.param with
  | some op, some value =>
      Cell.satisfies op (record.cell part.name) value.cell
  | _, _ => false

/- Does a record meet all criteria of a group, or one? -/
def meetsGroup
    (params : NameMap Scalar)
    (record : Record)
    (group : Group) : Bool :=
  match group.combine with
  | .all => group.criteria.all (record.meets params)
  | .any => group.criteria.any (record.meets params)

/- Does a record meet every group that is not empty? -/
def satisfies (query : Select) (record : Record) : Bool :=
  query.groups.all fun group =>
    group.criteria.isEmpty ||
      record.meetsGroup query.params group

/- The order of two records by some columns. -/
def compareBy (left right : Record) : List Order → Ordering
  | [] => .eq
  | order :: rest =>
      let first :=
        (left.cell order.field).compare
          (right.cell order.field)
      (if order.descending then first.swap else first).then
        (compareBy left right rest)

/- The cells that a query shows of a record. -/
def shown
    (query : Select)
    (record : Record) : List (Option Scalar) :=
  query.columns.map fun column =>
    (record.cell column).scalar?

end Record

/- As many rows as a query asks for. -/
def Select.limited
    {α : Type}
    (query : Select)
    (rows : List α) : List α :=
  if query.limit = 0 then rows else rows.take query.limit

------------------------------------------------------------
-- Answers
------------------------------------------------------------

namespace Contents

/- An item with its key and its attributes. -/
def recordOf
    (contents : Contents)
    (item : ItemRow) : Record where
  id := item.id
  key := (contents.value? item.valueId).map Value.content
  created := item.created
  modified := item.modified
  metadata := contents.metadata item.id

/- The records of a table; an unknown table has none. -/
def records
    (contents : Contents)
    (source : String) : List Record :=
  match contents.tableNamed? source with
  | some table =>
      (contents.items.rows.filter fun item =>
        item.tableId == table.id).map contents.recordOf
  | none => []

/-
  Rows answer a query: they show the records that satisfy it,
  each once, in the order asked for and up to the limit.
-/
def Answers
    (contents : Contents)
    (query : Select)
    (rows : List (List (Option Scalar))) : Prop :=
  ∃ found : List Record,
    found.Perm ((contents.records query.source).filter
      (Record.satisfies query)) ∧
    (found.Pairwise fun left right =>
      left.compareBy right query.orders ≠ .gt) ∧
    rows = (query.limited found).map (Record.shown query)

end Contents

------------------------------------------------------------
-- Queries
------------------------------------------------------------

namespace Select

/-
  A query compares attributes, keys and identities in six
  ways and does not count.
-/
structure Plain (query : Select) : Prop where
  operators : ∀ part ∈ query.criteria,
    part.op ∈ ["=", "<>", ">", ">=", "<", "<="]
  names : ∀ part ∈ query.criteria,
    Word.isReserved part.name = false ∨
      Word.lower part.name ∈ ["value", "id"]
  columns : ∀ column ∈ query.columns,
    Word.sameLetters column "count" = false

instance (query : Select) : Decidable query.Plain :=
  decidable_of_iff
    ((∀ part ∈ query.criteria,
        part.op ∈ ["=", "<>", ">", ">=", "<", "<="]) ∧
      (∀ part ∈ query.criteria,
        Word.isReserved part.name = false ∨
          Word.lower part.name ∈ ["value", "id"]) ∧
      ∀ column ∈ query.columns,
        Word.sameLetters column "count" = false)
    ⟨fun h => ⟨h.1, h.2.1, h.2.2⟩,
      fun h => ⟨h.1, h.2, h.3⟩⟩

end Select

namespace Contents

/- Are the scalars of a column numbers?  It may be unknown. -/
def kind?
    (contents : Contents)
    (table : Table)
    (column : String) : Option Bool :=
  let word := Word.lower column
  if word = "value" then some table.numeric
  else if word = "id" then some true
  else
    (contents.attributeNamed? table.id column).map
      Attribute.numeric

/-
  Every parameter that is set is of the kind of the column
  that it is compared with, and it is a number or a text.
-/
def Suits (contents : Contents) (query : Select) : Prop :=
  ∀ table,
    contents.tableNamed? query.source = some table →
    ∀ part ∈ query.criteria,
    ∀ value, query.params.get? part.param = some value →
    ∀ numeric,
      contents.kind? table part.name = some numeric →
      value.isStorable ∧ value.isNumeric = numeric

instance (contents : Contents) (query : Select) :
    Decidable (contents.Suits query) :=
  inferInstanceAs (Decidable
    (∀ table ∈ contents.tableNamed? query.source,
      ∀ part ∈ query.criteria,
      ∀ value ∈ query.params.get? part.param,
      ∀ numeric ∈ contents.kind? table part.name,
        value.isStorable ∧ value.isNumeric = numeric))

/- The attributes of a table that a query mentions. -/
def knownOf
    (contents : Contents)
    (table : Table)
    (columns : List String) : List (String × Attribute) :=
  columns.filterMap fun column =>
    if Word.isReserved column then
      none
    else
      (contents.attributeNamed? table.id column).map
        fun row => (column, row)

/- The plan of a query. -/
def planOf (contents : Contents) (query : Select) : Plan :=
  let table := contents.tableNamed? query.source
  Plan.build query table
    (table.elim [] fun row =>
      contents.knownOf row query.referenced)

end Contents

end SparseTables

import SparseTables.Plan.Build
import SparseTables.Session.Write

/-
  This file defines the calls that read items and run
  queries.

  Key definitions include:
    * `Session.compile`
    * `Session.select`
    * `Session.rowId`
    * `Session.get`
    * `Session.queryGet`
    * `Session.summarize`
    * `Session.schema`
-/

namespace SparseTables

namespace Session

------------------------------------------------------------
-- Compiling
------------------------------------------------------------

/- The attributes that a table has among columns. -/
def knownAmong
    (policies : Policies)
    (table : Table) :
    List String → Program (List (String × Attribute))
  | [] => pure []
  | column :: rest =>
      if Word.isReserved column then
        knownAmong policies table rest
      else do
        let found ← Attributes.resolve policies.rows table.id
          column .lookup false
        let more ← knownAmong policies table rest
        pure ((found.map fun row =>
          (column, row)).toList ++ more)

/- The plan and the parameters of a query. -/
def compile
    (policies : Policies)
    (query : Select) : Program (Plan × Params) := do
  Program.done query.check
  let table ← Tables.resolve policies.rows query.source
    .lookup false
  let known ←
    match table with
    | some row => knownAmong policies row query.referenced
    | none => pure []
  pure
    (Plan.build query table known,
      Params.ofScalars query.params.entries)

------------------------------------------------------------
-- Running queries
------------------------------------------------------------

/- The rows of a query. -/
def select
    (policies : Policies)
    (query : Select) : Program ResultSet := do
  let (plan, params) ← compile policies query
  let found : RowSet ← Program.run (.select plan params)
  pure
    { columns := found.columns
      rows := found.rows.map fun row =>
        row.cells.map Cell.scalar? }

/- The first cell of a row. -/
def firstCell (row : List (Option Scalar)) : Option Scalar :=
  row.head?.join

/- The first column of the first row. -/
def scalar
    (policies : Policies)
    (query : Select) : Program (Option Scalar) := do
  let found ← select policies query
  pure (found.rows.head?.bind firstCell)

/- A scalar as an integer. -/
def integerOf : Option Scalar → Except Error (Option Int)
  | none => .ok none
  | some (.number x) =>
      if x.isWhole then
        .ok (some x.toInt64)
      else
        .error (.validation (.notInteger (.number x)))
  | some other => .error (.validation (.notInteger other))

/- The first column of the first row as an integer. -/
def integer
    (policies : Policies)
    (query : Select) : Program (Option Int) := do
  let found ← scalar policies query
  Program.done (integerOf found)

/- The first column of every row. -/
def list
    (policies : Policies)
    (query : Select) : Program (List (Option Scalar)) := do
  let found ← select policies query
  pure (found.rows.map firstCell)

/- The first two columns of every row. -/
def pairs
    (policies : Policies)
    (query : Select) :
    Program (List (Option Scalar × Option Scalar)) := do
  let found ← select policies query
  if found.columns.length < 2 then
    throw (.validation .fewColumns)
  pure (found.rows.map fun row =>
    (firstCell row, firstCell (row.drop 1)))

/- The query for one column where another has a value. -/
def lookupQuery
    (table column known : String)
    (value : Scalar) : Select :=
  let param := "@" ++ known
  (((Select.on table).column column).filter
    ⟨known, "=", param⟩).bind param value

/- The identity of the item under a key. -/
def rowId
    (policies : Policies)
    (table : String)
    (key : Scalar) : Program (Option Int) := do
  Program.done (Check.table table "get_row_id")
  integer policies (lookupQuery table "id" "value" key)

/- The key of an item. -/
def rowValue
    (policies : Policies)
    (table : String)
    (id : Int) : Program (Option Scalar) := do
  Program.done (Check.table table "get_row_value")
  scalar policies
    (lookupQuery table "value" "id" (Scalar.ofInt id))

------------------------------------------------------------
-- Reading items
------------------------------------------------------------

/- The attributes of slots, added to those before. -/
def addSlots (metadata : Metadata) :
    List Slot → Program Metadata
  | [] => pure metadata
  | slot :: rest => do
      let row ← Program.required
        ("name " ++ toString slot.attributeId)
        (← Attributes.byId slot.attributeId)
      let content ← Program.required
        ("value " ++ toString slot.valueId)
        (← Values.byId slot.valueId)
      addSlots (metadata.insert row.name content) rest

/- The attributes of an item. -/
def metadataOf (itemId : Int) : Program Metadata := do
  addSlots .empty (← Items.slots itemId)

/- The attributes of the items under some keys. -/
def getEach
    (policies : Policies)
    (table : Table) :
    List Scalar → Program (List (Option Metadata))
  | [] => pure []
  | key :: rest => do
      let first ←
        match ← itemUnder policies table key with
        | some itemId => some <$> metadataOf itemId
        | none => pure none
      let more ← getEach policies table rest
      pure (first :: more)

/- Answer a request; its table must exist. -/
def get
    (policies : Policies)
    (request : GetRequest) : Program GetResponse := do
  let table ← Program.required ("table " ++ request.table)
    (← Tables.resolve policies.rows request.table .lookup false)
  let items ← getEach policies table request.keys
  pure ⟨items⟩

/- The columns that find the items of a query in order. -/
def itemColumns (query : Select) : List String :=
  query.orders.foldl
    (fun columns order =>
      if columns.contains order.field then columns
      else columns ++ [order.field])
    ["id", "value"]

/- The items of rows that start with identity and key. -/
def getRows :
    List (List (Option Scalar)) →
      Program (List (Option Metadata))
  | [] => pure []
  | (some (.number id) :: some key :: _) :: rest => do
      let metadata ← metadataOf id.toInt64
      let whole :=
        (metadata.insert "id" (.number id)).insert "value" key
      let more ← getRows rest
      pure (some whole :: more)
  | _ :: rest => getRows rest

/-
  The attributes of the items of a query, each with the
  item's identity and key.
-/
def queryGet
    (policies : Policies)
    (query : Select) : Program GetResponse := do
  let found ← select policies
    { query with columns := itemColumns query }
  let items ← getRows found.rows
  pure ⟨items⟩

/- One attribute within a summary. -/
def showEntry (entry : String × Scalar) : String :=
  entry.1 ++ "=" ++ entry.2.display

/- A line with the table, the key and the attributes. -/
def summarize (itemId : Int) : Program String := do
  let item ← Program.required ("item " ++ toString itemId)
    (← Items.byId itemId)
  let table ← Program.required
    ("table " ++ toString item.tableId)
    (← Tables.byId item.tableId)
  let key ← Program.required
    ("value " ++ toString item.valueId)
    (← Values.byId item.valueId)
  let metadata ← metadataOf itemId
  let entries := metadata.entries.map showEntry
  pure (table.name ++ "[" ++ key.display ++ "] \x7b" ++
    ", ".intercalate entries ++ "\x7d")

------------------------------------------------------------
-- Schema
------------------------------------------------------------

/- Add an attribute to the list of its table. -/
def addToSchema
    (tables : NameMap (List String))
    (entry : String × String) : NameMap (List String) :=
  let before := (tables.get? entry.1).getD []
  tables.insert entry.1 (before ++ [entry.2])

/- The attributes of one table, or of all. -/
def schema (table : Option String) : Program SchemaResponse := do
  let found : List (String × String) ←
    Program.run (.schema table)
  pure ⟨found.foldl addToSchema .empty⟩

end Session

end SparseTables

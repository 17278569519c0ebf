import SparseTables.Plan.Evaluate
import SparseTables.Plan.Render
import SparseTables.Store.Clock

/-
  This file defines the statements of the store: the text of
  each, the type of its answer, and what it does.

  A statement that fails has no effect.

  Key definitions include:
    * `Statement`
    * `Statement.text`
    * `Statement.Answer`
    * `Statement.run`
-/

namespace SparseTables

------------------------------------------------------------
-- Statements
------------------------------------------------------------

/- The kinds of statements by what they answer. -/
inductive StatementKind where
  /- Rows. -/
  | query
  /- The identity of a new row. -/
  | insert
  /- The number of changed rows. -/
  | execute
  /- A single cell. -/
  | scalar
deriving DecidableEq

/- The statements of the store. -/
inductive Statement where
  -- tables
  | tableNamed (name : String)
  | tableById (id : Int)
  | tableNames
  | allTables
  | addTable (name : String) (numeric : Bool)
  | addTableUncounted (name : String) (numeric : Bool)
  | tableIdOf (name : String)
  | tableNullOf (name : String)
  | removeTable (id : Int)
  | removeTables
  -- attributes
  | attributeNamed (tableId : Int) (name : String)
  | attributeById (id : Int)
  | attributeNames (tableId : Int)
  | addAttribute (tableId : Int) (name : String) (numeric : Bool)
  | removeSlotsByAttributes (tableId : Int)
  | removeAttributesOf (tableId : Int)
  | removeAttributes
  | schema (table : Option String)
  -- values
  | valueOf (content : Scalar)
  | valueById (id : Int)
  | addValue (content : Scalar)
  | removeValues
  -- items
  | itemOf (tableId valueId : Int)
  | itemById (id : Int)
  | addItem (tableId valueId : Int)
  | touchItem (id : Int)
  | removeItem (id : Int)
  | removeItemsOf (tableId : Int)
  | removeItems
  -- slots
  | slotsOf (itemId : Int)
  | removeSlot (itemId attributeId : Int)
  | addSlot (slot : Slot)
  | removeSlotsOf (tableId : Int)
  | removeOrphans
  | removeSlots
  -- listings and queries
  | allAttributes
  | allValues
  | allItems
  | allSlots
  | select (plan : Plan) (params : Params)
deriving DecidableEq

namespace Statement

def kind : Statement → StatementKind
  | tableNamed _ | tableById _ | tableNames | allTables => .query
  | addTable _ _ => .insert
  | addTableUncounted _ _ => .execute
  | tableIdOf _ | tableNullOf _ => .scalar
  | removeTable _ | removeTables => .execute
  | attributeNamed _ _ | attributeById _ => .query
  | attributeNames _ => .query
  | addAttribute _ _ _ => .insert
  | removeSlotsByAttributes _ | removeAttributesOf _ => .execute
  | removeAttributes => .execute
  | schema _ => .query
  | valueOf _ | valueById _ => .query
  | addValue _ => .insert
  | removeValues => .execute
  | itemOf _ _ | itemById _ => .query
  | addItem _ _ => .insert
  | touchItem _ | removeItem _ | removeItemsOf _ => .execute
  | removeItems => .execute
  | slotsOf _ => .query
  | removeSlot _ _ | addSlot _ | removeSlotsOf _ => .execute
  | removeOrphans | removeSlots => .execute
  | allAttributes | allValues | allItems => .query
  | allSlots | select _ _ => .query

------------------------------------------------------------
-- Texts
------------------------------------------------------------

/- The text of the statement that adds a table. -/
def addTableText : String :=
  "INSERT INTO tables (name, isNumeric) " ++
    "VALUES (@name, @isNumeric)"

/- The text of a schema statement. -/
def schemaText (table : Option String) : String :=
  "SELECT t.name AS tablename, n.name AS colname " ++
    "FROM tables t JOIN names n ON n.tableid = t.id" ++
    (if table.isSome then " WHERE t.name = @name" else "") ++
    " ORDER BY tablename, colname"

/- The text of a statement at a time of the clock. -/
def text (clock : Clock) : Statement → String
  | tableNamed _ =>
      "SELECT id, isNumeric FROM tables WHERE name = @name"
  | tableById _ =>
      "SELECT name, isNumeric FROM tables WHERE id = @id"
  | tableNames => "SELECT name FROM tables ORDER BY name"
  | allTables =>
      "SELECT id, name, isNumeric FROM tables ORDER BY id"
  | addTable _ _ | addTableUncounted _ _ => addTableText
  | tableIdOf _ => "SELECT id FROM tables WHERE name = @name"
  | tableNullOf _ => "SELECT NULL FROM tables WHERE name = @name"
  | removeTable _ => "DELETE FROM tables WHERE id = @id"
  | removeTables => "DELETE FROM tables"
  | attributeNamed _ _ =>
      "SELECT id, isNumeric FROM names " ++
        "WHERE tableid = @tableid AND name = @name"
  | attributeById _ =>
      "SELECT tableid, name, isNumeric FROM names " ++
        "WHERE id = @id"
  | attributeNames _ =>
      "SELECT name FROM names " ++
        "WHERE tableid = @tableid ORDER BY name"
  | addAttribute _ _ _ =>
      "INSERT INTO names (tableid, name, isNumeric) " ++
        "VALUES (@tableid, @name, @isNumeric)"
  | removeSlotsByAttributes _ =>
      "DELETE FROM item_attributes WHERE nameid IN " ++
        "(SELECT id FROM names WHERE tableid = @tableid)"
  | removeAttributesOf _ =>
      "DELETE FROM names WHERE tableid = @tableid"
  | removeAttributes => "DELETE FROM names"
  | schema table => schemaText table
  | valueOf (.number _) =>
      "SELECT id FROM bvalues " ++
        "WHERE isNumeric = 1 AND numberValue = @numberValue"
  | valueOf (.text _) =>
      "SELECT id FROM bvalues " ++
        "WHERE isNumeric = 0 AND stringValue = @stringValue"
  | valueById _ =>
      "SELECT isNumeric, numberValue, stringValue " ++
        "FROM bvalues WHERE id = @id"
  | addValue _ =>
      "INSERT INTO bvalues (isNumeric, numberValue, " ++
        "stringValue) VALUES (@isNumeric, @numberValue, " ++
        "@stringValue)"
  | removeValues => "DELETE FROM bvalues"
  | itemOf _ _ =>
      "SELECT id FROM items " ++
        "WHERE tableid = @tableid AND valueid = @valueid"
  | itemById _ =>
      "SELECT tableid, valueid, created, lastmodified " ++
        "FROM items WHERE id = @id"
  | addItem _ _ =>
      "INSERT INTO items (tableid, valueid, created, " ++
        "lastmodified) VALUES (@tableid, @valueid, " ++
        clock.literal ++ ", " ++ clock.literal ++ ")"
  | touchItem _ =>
      "UPDATE items SET lastmodified = " ++ clock.literal ++
        " WHERE id = @itemid"
  | removeItem _ => "DELETE FROM items WHERE id = @id"
  | removeItemsOf _ =>
      "DELETE FROM items WHERE tableid = @tableid"
  | removeItems => "DELETE FROM items"
  | slotsOf _ =>
      "SELECT nameid, valueid FROM item_attributes " ++
        "WHERE itemid = @itemid"
  | removeSlot _ _ =>
      "DELETE FROM item_attributes " ++
        "WHERE itemid = @itemid AND nameid = @nameid"
  | addSlot _ =>
      "INSERT OR IGNORE INTO item_attributes " ++
        "(itemid, nameid, valueid) " ++
        "VALUES (@itemid, @nameid, @valueid)"
  | removeSlotsOf _ =>
      "DELETE FROM item_attributes WHERE itemid IN " ++
        "(SELECT id FROM items WHERE tableid = @tableid)"
  | removeOrphans =>
      "DELETE FROM item_attributes " ++
        "WHERE itemid NOT IN (SELECT id FROM items)"
  | removeSlots => "DELETE FROM item_attributes"
  | allAttributes =>
      "SELECT id, tableid, name, isNumeric FROM names ORDER BY id"
  | allValues =>
      "SELECT id, isNumeric, numberValue, stringValue " ++
        "FROM bvalues ORDER BY id"
  | allItems =>
      "SELECT id, tableid, valueid, created, lastmodified " ++
        "FROM items ORDER BY id"
  | allSlots =>
      "SELECT itemid, nameid, valueid FROM item_attributes " ++
        "ORDER BY itemid, nameid"
  | select plan _ => plan.text

------------------------------------------------------------
-- Answers
------------------------------------------------------------

/- What a statement answers. -/
abbrev Answer : Statement → Type
  | tableNamed _ | tableById _ => Option Table
  | tableNames | attributeNames _ => List String
  | allTables => List Table
  | addTable _ _ | addAttribute _ _ _ => Int
  | addValue _ | addItem _ _ => Int
  | tableIdOf _ | tableNullOf _ => Option Cell
  | attributeNamed _ _ | attributeById _ => Option Attribute
  | schema _ => List (String × String)
  | valueOf _ | valueById _ => Option Value
  | itemOf _ _ | itemById _ => Option ItemRow
  | slotsOf _ | allSlots => List Slot
  | allAttributes => List Attribute
  | allValues => List Value
  | allItems => List ItemRow
  | select _ _ => RowSet
  | addTableUncounted _ _ => Nat
  | removeTable _ | removeTables => Nat
  | removeSlotsByAttributes _ | removeAttributesOf _ => Nat
  | removeAttributes | removeValues => Nat
  | touchItem _ | removeItem _ | removeItemsOf _ => Nat
  | removeItems | removeSlot _ _ | addSlot _ => Nat
  | removeSlotsOf _ | removeOrphans | removeSlots => Nat

------------------------------------------------------------
-- Effects
------------------------------------------------------------

/- Names in their order. -/
def sorted (names : List String) : List String :=
  names.mergeSort fun left right => decide (left ≤ right)

/- Tables with each of their attributes, by name. -/
def schemaOf
    (contents : Contents)
    (table : Option String) : List (String × String) :=
  let pairs := contents.tables.rows.flatMap fun row =>
    if table.all fun name => row.name == name then
      (contents.attributes.rows.filter fun attr_ =>
        attr_.tableId == row.id).map fun attr_ =>
          (row.name, attr_.name)
    else
      []
  pairs.mergeSort fun left right =>
    decide (left.1 < right.1) ||
      (left.1 == right.1 && decide (left.2 ≤ right.2))

/- Slots by item and attribute. -/
def sortedSlots (slots : List Slot) : List Slot :=
  slots.mergeSort fun left right =>
    decide (left.itemId < right.itemId) ||
      (left.itemId == right.itemId &&
        decide (left.attributeId ≤ right.attributeId))

/- Is a slot one of the attributes of a table? -/
def usesTable
    (contents : Contents)
    (tableId : Int)
    (slot : Slot) : Bool :=
  contents.attributes.rows.any fun attr_ =>
    attr_.id == slot.attributeId && attr_.tableId == tableId

/- Is a slot one of the items of a table? -/
def ownedBy
    (contents : Contents)
    (tableId : Int)
    (slot : Slot) : Bool :=
  contents.items.rows.any fun item =>
    item.id == slot.itemId && item.tableId == tableId

/- Is a slot left behind by an item that is gone? -/
def isOrphan (contents : Contents) (slot : Slot) : Bool :=
  (contents.item? slot.itemId).isNone

/- An answer that leaves the contents as they are. -/
def reading {α : Type}
    (contents : Contents)
    (answer : α) : Except Error (α × Contents) :=
  .ok (answer, contents)

/- Run a statement. -/
def run
    (clock : Clock)
    (contents : Contents) :
    (statement : Statement) →
      Except Error (statement.Answer × Contents)
  | tableNamed name =>
      reading contents (contents.tableNamed? name)
  | tableById id => reading contents (contents.table? id)
  | tableNames =>
      reading contents
        (sorted (contents.tables.rows.map Table.name))
  | allTables => reading contents contents.tables.rows
  | addTable name numeric => contents.addTable name numeric
  | addTableUncounted name numeric =>
      (contents.addTable name numeric).map fun added =>
        (1, added.2)
  | tableIdOf name =>
      reading contents
        ((contents.tableNamed? name).map fun row =>
          .integer row.id)
  | tableNullOf _ => reading contents none
  | removeTable id =>
      contents.removeTables fun other => other == id
  | removeTables => contents.removeTables fun _ => true
  | attributeNamed tableId name =>
      reading contents (contents.attributeNamed? tableId name)
  | attributeById id =>
      reading contents (contents.attribute? id)
  | attributeNames tableId =>
      let rows := contents.attributes.rows.filter fun row =>
        row.tableId == tableId
      reading contents (sorted (rows.map Attribute.name))
  | addAttribute tableId name numeric =>
      contents.addAttribute tableId name numeric
  | removeSlotsByAttributes tableId =>
      .ok (contents.removeSlots (usesTable contents tableId))
  | removeAttributesOf tableId =>
      .ok (contents.removeAttributes fun row =>
        row.tableId == tableId)
  | removeAttributes =>
      .ok (contents.removeAttributes fun _ => true)
  | schema table =>
      reading contents (schemaOf contents table)
  | valueOf content =>
      reading contents (contents.valueOf? content)
  | valueById id => reading contents (contents.value? id)
  | addValue content => contents.addValue content
  | removeValues => contents.removeValues
  | itemOf tableId valueId =>
      reading contents (contents.itemOf? tableId valueId)
  | itemById id => reading contents (contents.item? id)
  | addItem tableId valueId =>
      contents.addItem tableId valueId clock.cell
  | touchItem id => .ok (contents.touch id clock.cell)
  | removeItem id =>
      .ok (contents.removeItems fun row => row.id == id)
  | removeItemsOf tableId =>
      .ok (contents.removeItems fun row =>
        row.tableId == tableId)
  | removeItems => .ok (contents.removeItems fun _ => true)
  | slotsOf itemId =>
      reading contents (contents.slotsOf itemId)
  | removeSlot itemId attributeId =>
      .ok (contents.removeSlots fun slot =>
        slot.itemId == itemId &&
          slot.attributeId == attributeId)
  | addSlot slot => .ok (contents.addSlot slot)
  | removeSlotsOf tableId =>
      .ok (contents.removeSlots (ownedBy contents tableId))
  | removeOrphans =>
      .ok (contents.removeSlots (isOrphan contents))
  | removeSlots => .ok (contents.removeSlots fun _ => true)
  | allAttributes => reading contents contents.attributes.rows
  | allValues => reading contents contents.values.rows
  | allItems => reading contents contents.items.rows
  | allSlots => reading contents (sortedSlots contents.slots)
  | select plan params =>
      (plan.run contents params).map fun found =>
        (found, contents)

end Statement

end SparseTables

import SparseTables.Error
import SparseTables.Store.Rows

/-
  This file defines the contents of the store and the changes
  that its statements make.

  Each dictionary and the items are registers: a new row gets
  the next identity, and no identity is given twice.  Names,
  values and items are unique, and what attributes and items
  refer to must exist.  Slots refer without such a check.

  Key definitions include:
    * `Register`
    * `Register.insert`
    * `Contents`
    * `Contents.addTable`
    * `Contents.addAttribute`
    * `Contents.addValue`
    * `Contents.addItem`
    * `Contents.removeTables`
    * `Contents.removeValues`
-/

namespace SparseTables

------------------------------------------------------------
-- Registers
------------------------------------------------------------

/- Rows in the order of their identities, and the last one. -/
structure Register (ρ : Type) where
  rows : List ρ
  last : Int
deriving DecidableEq

namespace Register

variable {ρ : Type}

def empty : Register ρ :=
  ⟨[], 0⟩

instance : Inhabited (Register ρ) :=
  ⟨empty⟩

/- Add a row under the next identity. -/
def insert
    (register : Register ρ)
    (make : Int → ρ) : Int × Register ρ :=
  let id := register.last + 1
  (id, ⟨register.rows ++ [make id], id⟩)

/- Remove rows; their identities stay taken. -/
def remove
    (register : Register ρ)
    (doomed : ρ → Bool) : Register ρ :=
  { register with
    rows := register.rows.filter fun row => !doomed row }

end Register

------------------------------------------------------------
-- Contents
------------------------------------------------------------

/- All rows of the store. -/
structure Contents where
  tables : Register Table
  attributes : Register Attribute
  values : Register Value
  items : Register ItemRow
  slots : List Slot
deriving DecidableEq

namespace Contents

/- The store when it is new. -/
def empty : Contents where
  tables := .empty
  attributes := .empty
  values := .empty
  items := .empty
  slots := []

instance : Inhabited Contents :=
  ⟨empty⟩

------------------------------------------------------------
-- Finding rows
------------------------------------------------------------

def tableNamed? (contents : Contents) (name : String) :
    Option Table :=
  contents.tables.rows.find? fun row => row.name == name

def table? (contents : Contents) (id : Int) : Option Table :=
  contents.tables.rows.find? fun row => row.id == id

def attributeNamed?
    (contents : Contents)
    (tableId : Int)
    (name : String) : Option Attribute :=
  contents.attributes.rows.find? fun row =>
    row.tableId == tableId && row.name == name

def attribute? (contents : Contents) (id : Int) :
    Option Attribute :=
  contents.attributes.rows.find? fun row => row.id == id

/- The row of a content; both zeros are one content. -/
def valueOf? (contents : Contents) (content : Scalar) :
    Option Value :=
  contents.values.rows.find? fun row =>
    row.content.same content

def value? (contents : Contents) (id : Int) : Option Value :=
  contents.values.rows.find? fun row => row.id == id

def itemOf?
    (contents : Contents)
    (tableId valueId : Int) : Option ItemRow :=
  contents.items.rows.find? fun row =>
    row.tableId == tableId && row.valueId == valueId

def item? (contents : Contents) (id : Int) : Option ItemRow :=
  contents.items.rows.find? fun row => row.id == id

def slot?
    (contents : Contents)
    (itemId attributeId : Int) : Option Slot :=
  contents.slots.find? fun row =>
    row.itemId == itemId && row.attributeId == attributeId

/- The slots of an item, by attribute. -/
def slotsOf (contents : Contents) (itemId : Int) : List Slot :=
  (contents.slots.filter fun row => row.itemId == itemId)
    |>.mergeSort fun left right =>
      decide (left.attributeId ≤ right.attributeId)

------------------------------------------------------------
-- Adding rows
------------------------------------------------------------

/- Refuse a row whose unique columns are taken. -/
def clash {α : Type} (columns : List String) : Except Error α :=
  .error (.store (.unique columns))

/- Refuse a change that leaves a reference without its row. -/
def dangling {α : Type} : Except Error α :=
  .error (.store .foreignKey)

def addTable
    (contents : Contents)
    (name : String)
    (numeric : Bool) : Except Error (Int × Contents) :=
  if (contents.tableNamed? name).isSome then
    clash ["tables.name"]
  else
    let (id, tables) :=
      contents.tables.insert fun id => ⟨id, name, numeric⟩
    .ok (id, { contents with tables })

def addAttribute
    (contents : Contents)
    (tableId : Int)
    (name : String)
    (numeric : Bool) : Except Error (Int × Contents) :=
  if (contents.attributeNamed? tableId name).isSome then
    clash ["names.tableid", "names.name"]
  else if (contents.table? tableId).isNone then
    dangling
  else
    let (id, attributes) := contents.attributes.insert fun id =>
      ⟨id, tableId, name, numeric⟩
    .ok (id, { contents with attributes })

/- The columns that are unique for values of a kind. -/
def valueColumns : Scalar → List String
  | .number _ => ["bvalues.numberValue"]
  | .text _ =>
      ["bvalues.stringValue", "bvalues.numberValue",
        "bvalues.isNumeric"]

def addValue
    (contents : Contents)
    (content : Scalar) : Except Error (Int × Contents) :=
  if (contents.valueOf? content).isSome then
    clash (valueColumns content)
  else
    let (id, values) := contents.values.insert fun id =>
      ⟨id, content.normalized⟩
    .ok (id, { contents with values })

def addItem
    (contents : Contents)
    (tableId valueId : Int)
    (now : Cell) : Except Error (Int × Contents) :=
  if (contents.itemOf? tableId valueId).isSome then
    clash ["items.valueid", "items.tableid"]
  else if (contents.table? tableId).isNone ||
      (contents.value? valueId).isNone then
    dangling
  else
    let (id, items) := contents.items.insert fun id =>
      ⟨id, tableId, valueId, now, now⟩
    .ok (id, { contents with items })

/- Add a slot unless the item has one for the attribute. -/
def addSlot (contents : Contents) (slot : Slot) :
    Nat × Contents :=
  if (contents.slot? slot.itemId slot.attributeId).isSome then
    (0, contents)
  else
    (1, { contents with slots := contents.slots ++ [slot] })

/- Set the time of the last change of an item. -/
def touch
    (contents : Contents)
    (id : Int)
    (now : Cell) : Nat × Contents :=
  let change (row : ItemRow) : ItemRow :=
    if row.id == id then { row with modified := now } else row
  let items :=
    { contents.items with
      rows := contents.items.rows.map change }
  (contents.items.rows.countP fun row => row.id == id,
    { contents with items })

------------------------------------------------------------
-- Removing rows
------------------------------------------------------------

/- Remove tables that nothing refers to. -/
def removeTables
    (contents : Contents)
    (doomed : Int → Bool) : Except Error (Nat × Contents) :=
  let isUsed (row : Table) : Bool :=
    contents.attributes.rows.any
      (fun attr_ => attr_.tableId == row.id) ||
    contents.items.rows.any fun item => item.tableId == row.id
  let gone := contents.tables.rows.filter fun row =>
    doomed row.id
  if gone.any isUsed then
    dangling
  else
    .ok (gone.length,
      { contents with
        tables := contents.tables.remove fun row =>
          doomed row.id })

def removeAttributes
    (contents : Contents)
    (doomed : Attribute → Bool) : Nat × Contents :=
  ((contents.attributes.rows.filter doomed).length,
    { contents with
      attributes := contents.attributes.remove doomed })

/- Remove all values unless an item refers to one. -/
def removeValues
    (contents : Contents) : Except Error (Nat × Contents) :=
  let isUsed (row : Value) : Bool :=
    contents.items.rows.any fun item => item.valueId == row.id
  if contents.values.rows.any isUsed then
    dangling
  else
    .ok (contents.values.rows.length,
      { contents with
        values := contents.values.remove fun _ => true })

def removeItems
    (contents : Contents)
    (doomed : ItemRow → Bool) : Nat × Contents :=
  ((contents.items.rows.filter doomed).length,
    { contents with items := contents.items.remove doomed })

def removeSlots
    (contents : Contents)
    (doomed : Slot → Bool) : Nat × Contents :=
  ((contents.slots.filter doomed).length,
    { contents with
      slots := contents.slots.filter fun row => !doomed row })

end Contents

end SparseTables

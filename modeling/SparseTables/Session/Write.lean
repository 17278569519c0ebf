import SparseTables.Exchange
import SparseTables.Session.Attributes
import SparseTables.Session.Items
import SparseTables.Session.Values

/-
  This file defines the calls that change items and tables:
  defining and deleting items, creating and dropping tables,
  and resetting the store.

  Key definitions include:
    * `Policies`
    * `Session.define`
    * `Session.delete`
    * `Session.dropTable`
    * `Session.reset`
-/

namespace SparseTables

/- How often the calls of a session try again. -/
structure Policies where
  /- For tables, attributes and items. -/
  rows : Policy
  /- For values. -/
  values : Policy
deriving DecidableEq, Inhabited

namespace Session

------------------------------------------------------------
-- Defining
------------------------------------------------------------

/- A scalar must be of the kind that a name is fixed to. -/
def checkKind
    (name : String)
    (content : Scalar)
    (numeric : Bool) : Except Error Unit :=
  if numeric = content.isNumeric then
    .ok ()
  else
    .error
      (.typeMismatch name content content.isNumeric numeric)

/-
  The slot change of one entry.  To erase an attribute that
  the table does not have changes nothing.
-/
def changeOf
    (policies : Policies)
    (tableId : Int)
    (name : String) :
    Option Scalar → Program (Option SlotChange)
  | none => do
      let known ← Attributes.resolve policies.rows tableId name
        .lookup false
      pure (known.map fun row => ⟨row.id, none⟩)
  | some content => do
      Program.done (Check.storable content)
      let row ← Program.required ("name " ++ name)
        (← Attributes.resolve policies.rows tableId name
          .create content.isNumeric)
      Program.done (checkKind name content row.numeric)
      let valueId ← Program.required "attribute value"
        (← Values.resolve policies.values content .create)
      pure (some ⟨row.id, some valueId⟩)

/- The slot changes of entries, in order. -/
def changesOf
    (policies : Policies)
    (tableId : Int) :
    List (String × Option Scalar) → Program (List SlotChange)
  | [] => pure []
  | (name, content) :: rest => do
      let first ← changeOf policies tableId name content
      let more ← changesOf policies tableId rest
      pure (first.toList ++ more)

/-
  Create or change the item under a key.  Tables, attributes
  and values are created as needed.  The changes of slots are
  collected first and applied together.
-/
def define
    (policies : Policies)
    (request : Define) : Program Int := do
  Program.done (Check.storable request.key)
  let table ← Program.required ("table " ++ request.table)
    (← Tables.resolve policies.rows request.table .create
      request.key.isNumeric)
  Program.done (checkKind table.name request.key table.numeric)
  let keyId ← Program.required "key value"
    (← Values.resolve policies.values request.key .create)
  let itemId ← Program.required "item"
    (← Items.resolve policies.rows table.id keyId .create)
  let changes ← changesOf policies table.id request.entries
  Items.setSlots itemId changes
  pure itemId

------------------------------------------------------------
-- Tables
------------------------------------------------------------

/- Create a table unless it exists. -/
def createTable
    (policies : Policies)
    (name : String)
    (numeric : Bool) : Program Unit := do
  let _ ← Program.required ("table " ++ name)
    (← Tables.resolve policies.rows name .create numeric)

/-
  Remove a table with its attributes and items.  The caches
  are cleared before and after, whether it succeeds or not.
-/
def dropTable
    (policies : Policies)
    (name : String) : Program Unit := do
  Program.clearCaches
  match ← Tables.resolve policies.rows name .lookup false with
  | none => pure ()
  | some table =>
      let dropped ← Program.attempt do
        Attributes.purge table.id
        Items.purge table.id
        Tables.remove table.id
      Program.clearCaches
      Program.done dropped

/-
  Remove all items, and on demand everything else.  The
  caches are cleared whether it succeeds or not.
-/
def reset (dictionaries : Bool) : Program Unit := do
  let wiped ← Program.attempt do
    Items.reset
    if dictionaries then
      Values.reset
      Attributes.reset
      Tables.reset
  Program.clearCaches
  Program.done wiped

------------------------------------------------------------
-- Deleting
------------------------------------------------------------

/- The item of a table under a key. -/
def itemUnder
    (policies : Policies)
    (table : Table)
    (key : Scalar) : Program (Option Int) := do
  match ← Values.resolve policies.values key .lookup with
  | some valueId =>
      Items.resolve policies.rows table.id valueId .lookup
  | none => pure none

/- The items of a table under some keys. -/
def itemsUnder
    (policies : Policies)
    (table : Table) : List Scalar → Program (List Int)
  | [] => pure []
  | key :: rest => do
      let first ← itemUnder policies table key
      let more ← itemsUnder policies table rest
      pure (first.toList ++ more)

/- Delete the items under some keys that exist. -/
def delete
    (policies : Policies)
    (name : String)
    (keys : List Scalar) : Program Unit := do
  match ← Tables.resolve policies.rows name .lookup false with
  | none => pure ()
  | some table =>
      let doomed ← itemsUnder policies table keys
      let _ ← Items.remove doomed

end Session

end SparseTables

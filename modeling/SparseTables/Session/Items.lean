import SparseTables.Session.Tables

/-
  This file defines the calls on items and their slots.

  Key definitions include:
    * `Item`
    * `Items.resolve`
    * `Items.byId`
    * `Items.setSlots`
    * `Items.remove`
    * `Items.purge`
-/

namespace SparseTables

/- An item, with the times of its creation and last change. -/
structure Item where
  id : Int
  tableId : Int
  valueId : Int
  created : Timestamp
  modified : Timestamp
deriving DecidableEq

/- A change of a slot; no value erases it. -/
structure SlotChange where
  attributeId : Int
  valueId : Option Int
deriving DecidableEq

namespace Items

/- One attempt to find or to create an item. -/
def findOrAdd
    (tableId valueId : Int)
    (intent : Intent) : Program (Option Int) := do
  match ← Program.run (.itemOf tableId valueId) with
  | some row => pure (some row.id)
  | none =>
      match intent with
      | .lookup => pure none
      | .create => some <$> Program.run (.addItem tableId valueId)

/- The item of a table under a key. -/
def resolve
    (policy : Policy)
    (tableId valueId : Int)
    (intent : Intent) : Program (Option Int) :=
  policy.run "Items.get_or_create_item"
    (findOrAdd tableId valueId intent)

------------------------------------------------------------
-- Reading
------------------------------------------------------------

/- The time in a column of an item. -/
def time (column : Nat) (cell : Cell) : Except Error Timestamp :=
  match cell with
  | .text s =>
      match Timestamp.read s with
      | .ok found => .ok found
      | .error fault => .error (.store (.badTimestamp s fault))
  | _ => .error (.store (.notText column cell))

/- An item with its times read. -/
def ofRow (row : ItemRow) : Except Error Item := do
  let created ← time 2 row.created
  let modified ← time 3 row.modified
  pure
    { id := row.id
      tableId := row.tableId
      valueId := row.valueId
      created
      modified }

/- The item of an identity. -/
def byId (id : Int) : Program (Option Item) := do
  match ← Program.run (.itemById id) with
  | some row => some <$> Program.done (ofRow row)
  | none => pure none

/- The slots of an item, by attribute. -/
def slots (id : Int) : Program (List Slot) :=
  Program.run (.slotsOf id)

------------------------------------------------------------
-- Writing
------------------------------------------------------------

/- Replace or erase slots, one after another. -/
def applyChanges (id : Int) : List SlotChange → Program Unit
  | [] => pure ()
  | change :: rest => do
      let _ ← Program.runHeld
        (.removeSlot id change.attributeId)
      match change.valueId with
      | some valueId =>
          let _ ← Program.runHeld
            (.addSlot ⟨id, change.attributeId, valueId⟩)
          applyChanges id rest
      | none => applyChanges id rest

/-
  Change slots of an item and the time of its last change,
  all in one transaction.
-/
def setSlots
    (id : Int)
    (changes : List SlotChange) : Program Unit :=
  Program.transaction do
    let touched ← Program.runHeld (.touchItem id)
    if touched = 0 then
      throw (.notFound ("item " ++ toString id))
    applyChanges id changes

/- Remove items one after another, and count those found. -/
def removeEach : List Int → Program Nat
  | [] => pure 0
  | id :: rest => do
      let removed ← Program.runHeld (.removeItem id)
      let more ← removeEach rest
      pure (removed + more)

/-
  Remove items, all in one transaction.  Their slots stay
  behind.
-/
def remove (ids : List Int) : Program Nat :=
  Program.transaction (removeEach ids)

/-
  Remove the items of a table with their slots, and all slots
  that items left behind.
-/
def purge (tableId : Int) : Program Unit := do
  let _ ← Program.run (.removeSlotsOf tableId)
  let _ ← Program.run (.removeItemsOf tableId)
  let _ ← Program.run .removeOrphans

/- Remove all slots and items. -/
def reset : Program Unit := do
  let _ ← Program.run .removeSlots
  let _ ← Program.run .removeItems

end Items

end SparseTables

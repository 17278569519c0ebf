import SparseTables.Session.Tables

/-
  This file defines the calls on the dictionary of
  attributes.

  Key definitions include:
    * `Attributes.resolve`
    * `Attributes.byId`
    * `Attributes.purge`
-/

namespace SparseTables

namespace Attributes

/- One attempt to find or to create an attribute. -/
def findOrAdd
    (tableId : Int)
    (name : String)
    (intent : Intent)
    (numeric : Bool) : Program (Option Attribute) := do
  match ← Program.run (.attributeNamed tableId name) with
  | some row => some <$> Program.keepAttribute row
  | none =>
      match intent with
      | .lookup => pure none
      | .create =>
          let id ← Program.run
            (.addAttribute tableId name numeric)
          some <$>
            Program.keepAttribute ⟨id, tableId, name, numeric⟩

/-
  The attribute of a name.  An attribute that exists keeps
  its kind.
-/
def resolve
    (policy : Policy)
    (tableId : Int)
    (name : String)
    (intent : Intent)
    (numeric : Bool) : Program (Option Attribute) := do
  Program.done (Check.dictionary "Column" name)
  let caches ← Program.caches
  match caches.attributes.get? (tableId, name) with
  | some kept => pure (some kept)
  | none =>
      policy.run "Names.get_id"
        (findOrAdd tableId name intent numeric)

/- The attribute of an identity. -/
def byId (id : Int) : Program (Option Attribute) := do
  let caches ← Program.caches
  match caches.attributes.lookup? id with
  | some kept => pure (some kept)
  | none =>
      match ← Program.run (.attributeById id) with
      | some row => some <$> Program.keepAttribute row
      | none => pure none

/- The names of the attributes of a table, in order. -/
def names (tableId : Int) : Program (List String) :=
  Program.run (.attributeNames tableId)

/- Remove the attributes of a table, and their slots first. -/
def purge (tableId : Int) : Program Unit := do
  let _ ← Program.run (.removeSlotsByAttributes tableId)
  let _ ← Program.run (.removeAttributesOf tableId)

/- Remove all attributes. -/
def reset : Program Unit := do
  let _ ← Program.run .removeAttributes

end Attributes

end SparseTables

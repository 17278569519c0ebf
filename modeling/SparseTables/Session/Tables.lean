import SparseTables.Program
import SparseTables.Query.Check

/-
  This file defines the calls on the dictionary of tables.

  A table is looked up in the caches first, and what the
  store answers is kept.  A table that is to be created is
  looked up again when another caller was faster.

  Key definitions include:
    * `Intent`
    * `Tables.resolve`
    * `Tables.byId`
-/

namespace SparseTables

/- May a missing row be created? -/
inductive Intent where
  | create
  | lookup
deriving DecidableEq

namespace Tables

/- One attempt to find or to create a table. -/
def findOrAdd
    (name : String)
    (intent : Intent)
    (numeric : Bool) : Program (Option Table) := do
  match ← Program.run (.tableNamed name) with
  | some row => some <$> Program.keepTable row
  | none =>
      match intent with
      | .lookup => pure none
      | .create =>
          let id ← Program.run (.addTable name numeric)
          some <$> Program.keepTable ⟨id, name, numeric⟩

/-
  The table of a name.  A table that exists keeps the kind of
  keys that it was created with.
-/
def resolve
    (policy : Policy)
    (name : String)
    (intent : Intent)
    (numeric : Bool) : Program (Option Table) := do
  Program.done (Check.dictionary "Table" name)
  let caches ← Program.caches
  match caches.tables.get? name with
  | some kept => pure (some kept)
  | none =>
      policy.run "Tables.get_id" (findOrAdd name intent numeric)

/- The table of an identity. -/
def byId (id : Int) : Program (Option Table) := do
  let caches ← Program.caches
  match caches.tables.lookup? id with
  | some kept => pure (some kept)
  | none =>
      match ← Program.run (.tableById id) with
      | some row => some <$> Program.keepTable row
      | none => pure none

/- The names of all tables, in order. -/
def names : Program (List String) :=
  Program.run .tableNames

/- Remove the row of a table. -/
def remove (id : Int) : Program Unit := do
  let _ ← Program.run (.removeTable id)

/- Remove the rows of all tables. -/
def reset : Program Unit := do
  let _ ← Program.run .removeTables

end Tables

end SparseTables

import SparseTables.Session.Tables

/-
  This file defines the calls on the dictionary of values.
  Equal scalars share one row.

  Key definitions include:
    * `Values.resolve`
    * `Values.byId`
-/

namespace SparseTables

namespace Values

/- One attempt to find or to create a value. -/
def findOrAdd
    (content : Scalar)
    (intent : Intent) : Program (Option Int) := do
  match ← Program.run (.valueOf content) with
  | some row =>
      Program.keepValue content row.id
      pure (some row.id)
  | none =>
      match intent with
      | .lookup => pure none
      | .create =>
          let id ← Program.run (.addValue content)
          Program.keepValue content id
          pure (some id)

/- The identity of a scalar. -/
def resolve
    (policy : Policy)
    (content : Scalar)
    (intent : Intent) : Program (Option Int) := do
  Program.done (Check.storable content)
  let caches ← Program.caches
  match caches.values.get? content with
  | some id => pure (some id)
  | none =>
      policy.run "Values.get_id" (findOrAdd content intent)

/- The scalar of an identity. -/
def byId (id : Int) : Program (Option Scalar) := do
  let caches ← Program.caches
  match caches.values.lookup? id with
  | some kept => pure (some kept)
  | none =>
      match ← Program.run (.valueById id) with
      | some row =>
          Program.keepValue row.content id
          pure (some row.content)
      | none => pure none

/- Remove all values. -/
def reset : Program Unit := do
  let _ ← Program.run .removeValues

end Values

end SparseTables

import SparseTables.Store.Rows

/-
  This file defines the caches of a session: the dictionary
  rows that it has met.

  A keeper finds rows by key and by identity.  A row is kept
  only if none with its key is.  The keeper of values is a
  one-to-one relation between scalars and identities, and a
  new pair replaces the pairs that share a side with it.

  Key definitions include:
    * `Keyed`
    * `Keeper`
    * `Keeper.keep`
    * `ValueKeeper`
    * `ValueKeeper.keep`
    * `Caches`
-/

namespace SparseTables

------------------------------------------------------------
-- Dictionary rows
------------------------------------------------------------

/- Rows have a key besides their identity. -/
class Keyed (ρ : Type) (κ : outParam Type) where
  key : ρ → κ
  id : ρ → Int

/- Table names are unique. -/
instance : Keyed Table String where
  key row := row.name
  id row := row.id

/- Attribute names are unique within a table. -/
instance : Keyed Attribute (Int × String) where
  key row := (row.tableId, row.name)
  id row := row.id

------------------------------------------------------------
-- Keepers
------------------------------------------------------------

/- Rows by key and by identity. -/
structure Keeper (κ ρ : Type) where
  byKey : List (κ × ρ)
  byId : List (Int × ρ)

namespace Keeper

variable {κ ρ : Type} [DecidableEq κ] [Keyed ρ κ]

def empty : Keeper κ ρ :=
  ⟨[], []⟩

/- The row kept under a key. -/
def get? (keeper : Keeper κ ρ) (key : κ) : Option ρ :=
  keeper.byKey.lookup key

/- The row kept under an identity. -/
def lookup? (keeper : Keeper κ ρ) (id : Int) : Option ρ :=
  keeper.byId.lookup id

/-
  Keep a row unless one with its key is kept, and give the
  row that is kept then.
-/
def keep (keeper : Keeper κ ρ) (row : ρ) : ρ × Keeper κ ρ :=
  match keeper.get? (Keyed.key row) with
  | some kept =>
      (kept,
        { keeper with
          byId := (Keyed.id kept, kept) :: keeper.byId })
  | none =>
      (row,
        { byKey := (Keyed.key row, row) :: keeper.byKey
          byId := (Keyed.id row, row) :: keeper.byId })

/- The number of kept keys. -/
def size (keeper : Keeper κ ρ) : Nat :=
  keeper.byKey.length

end Keeper

------------------------------------------------------------
-- Values
------------------------------------------------------------

/- Scalars and their identities, one to one. -/
structure ValueKeeper where
  pairs : List (Scalar × Int)

namespace ValueKeeper

def empty : ValueKeeper :=
  ⟨[]⟩

/- Does a pair share a side with a scalar and an identity? -/
def overlaps
    (value : Scalar)
    (id : Int)
    (pair : Scalar × Int) : Bool :=
  pair.1.same value || pair.2 == id

/- Keep a pair instead of those that share a side with it. -/
def keep
    (keeper : ValueKeeper)
    (value : Scalar)
    (id : Int) : ValueKeeper :=
  ⟨(value, id) ::
    keeper.pairs.filter fun pair => !overlaps value id pair⟩

/- The identity of a scalar. -/
def get? (keeper : ValueKeeper) (value : Scalar) : Option Int :=
  (keeper.pairs.find? fun pair => pair.1.same value).map
    Prod.snd

/- The scalar of an identity, as it was kept. -/
def lookup? (keeper : ValueKeeper) (id : Int) : Option Scalar :=
  (keeper.pairs.find? fun pair => pair.2 == id).map Prod.fst

/- The number of kept pairs. -/
def size (keeper : ValueKeeper) : Nat :=
  keeper.pairs.length

end ValueKeeper

------------------------------------------------------------
-- Caches
------------------------------------------------------------

/- The keepers of one session. -/
structure Caches where
  tables : Keeper String Table
  attributes : Keeper (Int × String) Attribute
  values : ValueKeeper

/- Nothing is kept. -/
def Caches.empty : Caches where
  tables := .empty
  attributes := .empty
  values := .empty

instance : Inhabited Caches :=
  ⟨.empty⟩

end SparseTables

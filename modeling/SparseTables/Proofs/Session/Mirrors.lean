import SparseTables.Proofs.Program.Ensures

/-
  This file defines when the caches of a session mirror the
  contents of the store: every row that is kept is a row of
  the store, and every scalar that is kept is the content of
  the value with its identity.

  Main declarations:
    * `Keeper.Mirrors`
    * `Caches.Mirrors`
    * `Caches.Mirrors.grows`
    * `Program.Gives`
    * `Program.ensures_keepTable`
    * `Program.ensures_keepAttribute`
    * `Program.ensures_keepValue`
-/

namespace SparseTables

------------------------------------------------------------
-- Keepers
------------------------------------------------------------

/- What an association list gives under a key is in it. -/
theorem mem_of_lookup
    {κ ρ : Type}
    [DecidableEq κ]
    {entries : List (κ × ρ)}
    {key : κ}
    {row : ρ}
    (hLookup : entries.lookup key = some row) :
    (key, row) ∈ entries := by
  rcases List.lookup_eq_some_iff.1 hLookup with
    ⟨before, after, hEntries, -⟩
  simp [hEntries]

namespace Keeper

variable {κ ρ : Type} [Keyed ρ κ]

/- All kept rows are among some rows, under their own keys. -/
structure Mirrors (keeper : Keeper κ ρ) (rows : List ρ) :
    Prop where
  byKey : ∀ entry ∈ keeper.byKey,
    entry.2 ∈ rows ∧ Keyed.key entry.2 = entry.1
  byId : ∀ entry ∈ keeper.byId,
    entry.2 ∈ rows ∧ Keyed.id entry.2 = entry.1

variable {keeper : Keeper κ ρ} {rows : List ρ}

namespace Mirrors

theorem empty : (Keeper.empty : Keeper κ ρ).Mirrors rows :=
  ⟨by simp [Keeper.empty], by simp [Keeper.empty]⟩

theorem mono
    (hMirrors : keeper.Mirrors rows)
    {more : List ρ}
    (hMore : ∀ row ∈ rows, row ∈ more) :
    keeper.Mirrors more :=
  ⟨fun entry hEntry =>
      ⟨hMore _ (hMirrors.byKey entry hEntry).1,
        (hMirrors.byKey entry hEntry).2⟩,
    fun entry hEntry =>
      ⟨hMore _ (hMirrors.byId entry hEntry).1,
        (hMirrors.byId entry hEntry).2⟩⟩

theorem lookup?_eq_some
    (hMirrors : keeper.Mirrors rows)
    {id : Int}
    {row : ρ}
    (hLookup : keeper.lookup? id = some row) :
    row ∈ rows ∧ Keyed.id row = id :=
  hMirrors.byId _ (mem_of_lookup hLookup)

variable [DecidableEq κ]

theorem get?_eq_some
    (hMirrors : keeper.Mirrors rows)
    {key : κ}
    {row : ρ}
    (hGet : keeper.get? key = some row) :
    row ∈ rows ∧ Keyed.key row = key :=
  hMirrors.byKey _ (mem_of_lookup hGet)

theorem keep
    (hMirrors : keeper.Mirrors rows)
    {row : ρ}
    (hRow : row ∈ rows) :
    (keeper.keep row).2.Mirrors rows := by
  unfold Keeper.keep
  split
  · rename_i kept hGet
    rcases hMirrors.get?_eq_some hGet with ⟨hKept, -⟩
    exact ⟨hMirrors.byKey,
      List.forall_mem_cons.2 ⟨⟨hKept, rfl⟩, hMirrors.byId⟩⟩
  · exact ⟨
      List.forall_mem_cons.2 ⟨⟨hRow, rfl⟩, hMirrors.byKey⟩,
      List.forall_mem_cons.2 ⟨⟨hRow, rfl⟩, hMirrors.byId⟩⟩

/- The row that is kept is the only one with its key. -/
theorem get?_keep
    (hMirrors : keeper.Mirrors rows)
    (hUnique : ∀ row ∈ rows, ∀ other ∈ rows,
      (Keyed.key row : κ) = Keyed.key other → row = other)
    {row : ρ}
    (hRow : row ∈ rows) :
    (keeper.keep row).2.get? (Keyed.key row) = some row := by
  unfold Keeper.keep
  split
  · rename_i kept hGet
    rcases hMirrors.get?_eq_some hGet with ⟨hKept, hKey⟩
    rw [← hUnique kept hKept row hRow hKey]
    exact hKey ▸ hGet
  · simp [Keeper.get?]

end Mirrors

end Keeper

------------------------------------------------------------
-- Values
------------------------------------------------------------

/- All kept scalars are the contents of their values. -/
def ValueKeeper.Mirrors
    (keeper : ValueKeeper)
    (rows : List Value) : Prop :=
  ∀ pair ∈ keeper.pairs, ⟨pair.2, pair.1.normalized⟩ ∈ rows

namespace ValueKeeper.Mirrors

variable {keeper : ValueKeeper} {rows : List Value}

theorem get?_eq_some
    (hMirrors : keeper.Mirrors rows)
    {content : Scalar}
    {id : Int}
    (hGet : keeper.get? content = some id) :
    ⟨id, content.normalized⟩ ∈ rows := by
  rcases Option.map_eq_some_iff.1 hGet with ⟨pair, hPair, rfl⟩
  have hSame := List.find?_some hPair
  rw [Scalar.same_iff_normalized] at hSame
  rw [← hSame]
  exact hMirrors pair (List.mem_of_find?_eq_some hPair)

theorem lookup?_eq_some
    (hMirrors : keeper.Mirrors rows)
    {id : Int}
    {content : Scalar}
    (hLookup : keeper.lookup? id = some content) :
    ⟨id, content.normalized⟩ ∈ rows := by
  rcases Option.map_eq_some_iff.1 hLookup with
    ⟨pair, hPair, rfl⟩
  have hSame := List.find?_some hPair
  rw [beq_iff_eq] at hSame
  rw [← hSame]
  exact hMirrors pair (List.mem_of_find?_eq_some hPair)

theorem keep
    (hMirrors : keeper.Mirrors rows)
    {content : Scalar}
    {id : Int}
    (hRow : ⟨id, content.normalized⟩ ∈ rows) :
    (keeper.keep content id).Mirrors rows :=
  List.forall_mem_cons.2 ⟨hRow, fun pair hPair =>
    hMirrors pair (List.mem_of_mem_filter hPair)⟩

end ValueKeeper.Mirrors

------------------------------------------------------------
-- Caches
------------------------------------------------------------

namespace Caches

/- Everything that is kept is in the store. -/
structure Mirrors (caches : Caches) (contents : Contents) :
    Prop where
  tables : caches.tables.Mirrors contents.tables.rows
  attributes :
    caches.attributes.Mirrors contents.attributes.rows
  values : caches.values.Mirrors contents.values.rows

theorem Mirrors.empty (contents : Contents) :
    Caches.empty.Mirrors contents :=
  ⟨.empty, .empty, by
    simp [Caches.empty, ValueKeeper.empty,
      ValueKeeper.Mirrors]⟩

theorem Mirrors.grows
    {caches : Caches}
    {contents after : Contents}
    (hMirrors : caches.Mirrors contents)
    (hGrows : contents.Grows after) :
    caches.Mirrors after :=
  ⟨hMirrors.tables.mono fun _ => hGrows.tables.mem,
    hMirrors.attributes.mono fun _ => hGrows.attributes.mem,
    fun pair hPair =>
      hGrows.values.mem (hMirrors.values pair hPair)⟩

/-
  No other table of the store has its name, so the one that is
  kept is the one that a look-up gives.
-/
theorem Mirrors.get?_keepTable
    {caches : Caches}
    {contents : Contents}
    (hMirrors : caches.Mirrors contents)
    (hKeyed : contents.Keyed)
    {row : Table}
    (hRow : row ∈ contents.tables.rows) :
    (caches.tables.keep row).2.get? row.name = some row :=
  hMirrors.tables.get?_keep
    (fun _ hOne _ hOther hName =>
      List.inj_on_of_nodup_map hKeyed.tableNames hOne hOther
        hName) hRow

theorem Mirrors.get?_keepAttribute
    {caches : Caches}
    {contents : Contents}
    (hMirrors : caches.Mirrors contents)
    (hKeyed : contents.Keyed)
    {row : Attribute}
    (hRow : row ∈ contents.attributes.rows) :
    (caches.attributes.keep row).2.get?
      (row.tableId, row.name) = some row :=
  hMirrors.attributes.get?_keep
    (fun _ hOne _ hOther hName =>
      List.inj_on_of_nodup_map hKeyed.attributeNames hOne
        hOther hName) hRow

end Caches

------------------------------------------------------------
-- Keeping
------------------------------------------------------------

namespace Program

variable {setup : Setup}
variable {contents : Contents} {caches : Caches}

/- What a call ends with that only gives something. -/
def Gives
    {α : Type}
    (contents : Contents)
    (given : α) : Post α :=
  fun outcome after caches =>
    outcome = .ok given ∧ after = contents ∧
      caches.Mirrors contents

/- To keep a row of the store gives that row. -/
theorem ensures_keepTable
    (hSound : contents.Sound)
    (hMirrors : caches.Mirrors contents)
    {row : Table}
    (hRow : row ∈ contents.tables.rows) :
    (keepTable row).Ensures setup contents caches
      (Gives contents row) := by
  have hGet := hMirrors.get?_keepTable hSound.keyed hRow
  refine ensures_cached hSound (ensures_done hSound
    ⟨?_, rfl, { hMirrors with
      tables := hMirrors.tables.keep hRow }⟩)
  simp only [hGet, Option.getD_some]

theorem ensures_keepAttribute
    (hSound : contents.Sound)
    (hMirrors : caches.Mirrors contents)
    {row : Attribute}
    (hRow : row ∈ contents.attributes.rows) :
    (keepAttribute row).Ensures setup contents caches
      (Gives contents row) := by
  have hGet := hMirrors.get?_keepAttribute hSound.keyed hRow
  refine ensures_cached hSound (ensures_done hSound
    ⟨?_, rfl, { hMirrors with
      attributes := hMirrors.attributes.keep hRow }⟩)
  simp only [hGet, Option.getD_some]

theorem ensures_keepValue
    (hSound : contents.Sound)
    (hMirrors : caches.Mirrors contents)
    {content : Scalar}
    {id : Int}
    (hRow : ⟨id, content.normalized⟩ ∈
      contents.values.rows) :
    (keepValue content id).Ensures setup contents caches
      (Gives contents ()) :=
  ensures_cached hSound (ensures_done hSound
    ⟨rfl, rfl, { hMirrors with
      values := hMirrors.values.keep hRow }⟩)

end Program

end SparseTables

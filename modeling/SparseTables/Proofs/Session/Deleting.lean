import SparseTables.Proofs.Query.Compiling
import SparseTables.Proofs.Session.Outcomes

/-
  This file states what callers can rely on when they delete
  items, at any time in the history of a store.

  All items under the keys are gone, or none is.  Nothing of
  an item that is gone shows in one that is defined under its
  key later on.

  Main declarations:
    * `Contents.IsUnder`
    * `Contents.Deletes`
    * `Contents.deletable`
    * `Session.Deleted`
    * `Session.ensures_deleted`
    * `Session.delete_removes_exactly`
-/

namespace SparseTables

open Program

------------------------------------------------------------
-- Items under keys
------------------------------------------------------------

namespace Contents

variable {contents : Contents} {name : String}
variable {keys : List Scalar} {item : ItemRow}

/- Is an item of a table, and its key equal to one of some? -/
def IsUnder
    (contents : Contents)
    (name : String)
    (keys : List Scalar)
    (item : ItemRow) : Prop :=
  (∃ table ∈ contents.tables.rows,
    table.id = item.tableId ∧ table.name = name) ∧
  ∃ value ∈ contents.values.rows, value.id = item.valueId ∧
    ∃ key ∈ keys, value.content.same key = true

/-
  What is left when the items under some keys are deleted:
  all other items as they were, with the dictionaries.
-/
structure Deletes
    (before after : Contents)
    (name : String)
    (keys : List Scalar) : Prop where
  items : ∀ item, item ∈ after.items.rows ↔
    item ∈ before.items.rows ∧ ¬ before.IsUnder name keys item
  kept : ∀ item ∈ after.items.rows, before.Keeps after item
  last : after.items.last = before.items.last
  tables : after.tables = before.tables
  attributes : after.attributes = before.attributes
  values : after.values = before.values

/- An item under a key is the one that the key finds. -/
theorem Sound.isUnder_iff
    (hSound : contents.Sound)
    {table : Table}
    (hTable : contents.tableNamed? name = some table)
    (hItem : item ∈ contents.items.rows) :
    contents.IsUnder name keys item ↔
      ∃ key ∈ keys,
        contents.itemUnder? table.id key = some item := by
  rcases hSound.tableNamed?_eq_some_iff.1 hTable with
    ⟨hMem, hName⟩
  have hKey {value : Value} {key : Scalar}
      (hValue : value ∈ contents.values.rows) :
      value.content.same key = true ↔
        value.content = key.normalized := by
    rw [Scalar.same_iff_normalized,
      hSound.normalized value hValue]
  simp only [hSound.itemUnder?_eq_some_iff]
  constructor
  · rintro ⟨⟨row, hRow, hId, hSame⟩, value, hValue, hValueId,
      key, hIn, hEqual⟩
    have hFind :=
      hSound.tableNamed?_eq_some_iff.2 ⟨hRow, hSame⟩
    rw [hTable] at hFind
    cases hFind
    exact ⟨key, hIn, hItem, hId.symm, value, hValue, hValueId,
      (hKey hValue).1 hEqual⟩
  · rintro ⟨key, hIn, -, hId, value, hValue, hValueId,
      hContent⟩
    exact ⟨⟨table, hMem, hId.symm, hName⟩, value, hValue,
      hValueId, key, hIn, (hKey hValue).2 hContent⟩

/- No item is under a key of a table that is not there. -/
theorem Sound.not_isUnder_of_unknown
    (hSound : contents.Sound)
    (hUnknown : contents.tableNamed? name = none) :
    ¬ contents.IsUnder name keys item := by
  rintro ⟨⟨table, hTable, -, hName⟩, -⟩
  have hFind :=
    hSound.tableNamed?_eq_some_iff.2 ⟨hTable, hName⟩
  rw [hUnknown] at hFind
  cases hFind

theorem Sound.deletes_of_unknown
    (hSound : contents.Sound)
    (hUnknown : contents.tableNamed? name = none) :
    contents.Deletes contents name keys where
  items item := by
    simp [hSound.not_isUnder_of_unknown hUnknown]
  kept item hItem := ⟨hItem, rfl, rfl, rfl⟩
  last := rfl
  tables := rfl
  attributes := rfl
  values := rfl

/- The items under keys are removed by their identities. -/
theorem Sound.deletes_removeItems
    (hSound : contents.Sound)
    {table : Table}
    (hTable : contents.tableNamed? name = some table)
    {ids : List Int}
    (hIds : ids = (keys.filterMap
      (contents.itemUnder? table.id)).map ItemRow.id) :
    contents.Deletes (contents.removeItems fun row =>
      ids.contains row.id).2 name keys where
  items item := by
    change item ∈ contents.items.rows.filter _ ↔ _
    simp only [List.mem_filter, Bool.not_eq_true',
      List.contains_eq_mem, decide_eq_false_iff_not]
    refine and_congr_right fun hItem => not_congr ?_
    rw [hSound.isUnder_iff hTable hItem, hIds]
    simp only [List.mem_map, List.mem_filterMap]
    constructor
    · rintro ⟨other, ⟨key, hKey, hFind⟩, hSame⟩
      have hOther := (hSound.itemUnder?_eq_some_iff.1 hFind).1
      cases hSound.items.eq_of_id hOther hItem hSame
      exact ⟨key, hKey, hFind⟩
    · rintro ⟨key, hKey, hFind⟩
      exact ⟨item, ⟨key, hKey, hFind⟩, rfl⟩
  kept item hItem := ⟨hItem, rfl, rfl, rfl⟩
  last := rfl
  tables := rfl
  attributes := rfl
  values := rfl

/- No item is found under a key that was deleted. -/
theorem Deletes.itemIn?_eq_none
    {before after : Contents}
    (hDeletes : before.Deletes after name keys)
    (hAfter : after.Sound)
    {key : Scalar}
    (hKey : key ∈ keys) :
    after.itemIn? name key = none := by
  cases hFind : after.itemIn? name key with
  | none => rfl
  | some item =>
      rcases hAfter.itemIn?_eq_some_iff.1 hFind with
        ⟨hItem, hTable, value, hValue, hId, hContent⟩
      have hSame : value.content.same key = true := by
        rw [Scalar.same_iff_normalized, hContent]
        simp
      rw [hDeletes.tables] at hTable
      rw [hDeletes.values] at hValue
      exact absurd
        ⟨hTable, value, hValue, hId, key, hKey, hSame⟩
        ((hDeletes.items item).1 hItem).2

/-
  What a request to delete must be to be accepted: its name
  is proper, and if there is such a table, its keys can be
  stored.
-/
structure Deletable
    (contents : Contents)
    (name : String)
    (keys : List Scalar) : Prop where
  proper : Check.dictionary "Table" name = .ok ()
  storable : (contents.tableNamed? name).isSome →
    ∀ key ∈ keys, key.isStorable = true

theorem lookUp_eq_ok_iff
    {tableId : Int}
    {key : Scalar}
    {found : Option ItemRow} :
    contents.lookUp tableId key = .ok found ↔
      key.isStorable = true ∧
        contents.itemUnder? tableId key = found := by
  cases hKey : key.isStorable <;>
    simp [lookUp, Check.storable, Check.that, hKey, Except.map]

/- Items are looked up if all of their keys can be stored. -/
theorem ids_of_mapM_lookUp
    {tableId : Int}
    {ids : List Int}
    (hIds : .ok ids =
      (keys.mapM (contents.lookUp tableId)).map
        fun found => found.reduceOption.map ItemRow.id) :
    (∀ key ∈ keys, key.isStorable = true) ∧
      ids = (keys.filterMap
        (contents.itemUnder? tableId)).map ItemRow.id := by
  cases hRows : keys.mapM (contents.lookUp tableId) with
  | error error =>
      rw [hRows] at hIds
      cases hIds
  | ok rows =>
      have hStorable : ∀ key ∈ keys,
          key.isStorable = true := by
        intro key hKey
        rcases Except.exists_of_mapM_eq_ok hRows key hKey with
          ⟨found, hFound⟩
        exact (lookUp_eq_ok_iff.1 hFound).1
      rw [Except.mapM_eq fun key hKey =>
        lookUp_eq_ok_iff.2 ⟨hStorable key hKey, rfl⟩] at hIds
      cases hIds
      exact ⟨hStorable,
        congrArg (List.map ItemRow.id) List.filterMap_map⟩

end Contents

------------------------------------------------------------
-- Deleting
------------------------------------------------------------

namespace Session

variable {setup : Setup}
variable {contents : Contents} {caches : Caches}
variable {name : String} {keys : List Scalar}

/-
  What a request to delete ends with.  If it fails it was
  refused or a call of the store went wrong, and nothing has
  changed unless the answer to its commit was lost.
-/
def Deleted
    (setup : Setup)
    (contents : Contents)
    (name : String)
    (keys : List Scalar) : Post Unit :=
  fun outcome after caches =>
    caches.Mirrors after ∧
      match outcome with
      | .ok _ => contents.Deletes after name keys ∧
          contents.Deletable name keys
      | .error _ =>
          (setup.trouble ≠ .any → after = contents) ∧
            (setup.trouble ≠ .none ∨
              ¬ contents.Deletable name keys)

/- What is found under the keys is removed, or nothing is. -/
theorem ensures_removed
    (hFree : setup.saved = none)
    (hSound : contents.Sound)
    (hMirrors : caches.Mirrors contents)
    (hDeletable : contents.Deletable name keys)
    {table : Table}
    (hTable : contents.tableNamed? name = some table)
    {ids : List Int}
    (hIds : ids = (keys.filterMap
      (contents.itemUnder? table.id)).map ItemRow.id) :
    (do let _ ← Items.remove ids : Program Unit).Ensures
      setup contents caches
      (Deleted setup contents name keys) := by
  apply (Items.ensures_remove hFree hSound ids).bind
  · rintro _ _ caches hAfter - ⟨rfl, rfl⟩
    exact ensures_pure hAfter ⟨{ hMirrors with },
      hSound.deletes_removeItems hTable hIds, hDeletable⟩
  · rintro error after _ - - ⟨rfl, hTrouble, hEnd⟩
    refine ⟨?_, fun hNot => ?_, .inl hTrouble⟩
    · rcases hEnd with rfl | ⟨-, rfl⟩
      · exact hMirrors
      · exact { hMirrors with }
    · rcases hEnd with rfl | ⟨hAny, -⟩
      · rfl
      · exact absurd hAny hNot

/- All keys of a known table are looked up before that. -/
theorem ensures_deletedIn
    (hFree : setup.saved = none)
    (hSound : contents.Sound)
    (hMirrors : caches.Mirrors contents)
    (policies : Policies)
    (hName : Check.dictionary "Table" name = .ok ())
    {table : Table}
    (hTable : contents.tableNamed? name = some table) :
    (do
      let doomed ← itemsUnder policies table keys
      let _ ← Items.remove doomed : Program Unit).Ensures
        setup contents caches
        (Deleted setup contents name keys) := by
  apply (ensures_itemsUnder hFree hSound hMirrors policies
    table keys).bind
  · rintro doomed after caches - - ⟨rfl, hMirrors, hEnd⟩
    rcases hEnd with hDoomed | ⟨-, error, ⟨⟩⟩
    rcases Contents.ids_of_mapM_lookUp hDoomed with
      ⟨hStorable, hIds⟩
    exact ensures_removed hFree hSound hMirrors
      ⟨hName, fun _ => hStorable⟩ hTable hIds
  · rintro error after caches - - ⟨rfl, hMirrors, hEnd⟩
    refine ⟨hMirrors, fun _ => rfl,
      hEnd.symm.imp And.left ?_⟩
    intro hRefused hDeletable
    rw [Except.mapM_eq fun key hKey =>
      Contents.lookUp_eq_ok_iff.2
        ⟨hDeletable.storable (by simp [hTable]) key hKey,
          rfl⟩] at hRefused
    cases hRefused

/- A request to delete changes nothing if it fails. -/
theorem ensures_deleted
    (hFree : setup.saved = none)
    (hSound : contents.Sound)
    (hMirrors : caches.Mirrors contents)
    (policies : Policies)
    (name : String)
    (keys : List Scalar) :
    (delete policies name keys).Ensures setup contents caches
      (Deleted setup contents name keys) := by
  have hLookup := (Tables.ensures_resolve hFree hSound hMirrors
    policies.rows name .lookup false).mono
      fun _ _ _ _ _ hFinds => hFinds.reads
  apply hLookup.bind
  · rintro found after caches - - ⟨rfl, hMirrors, hEnd⟩
    rcases hEnd with hFound | ⟨-, error, ⟨⟩⟩
    rcases hName : Check.dictionary "Table" name with
      error | _
    · rw [hName] at hFound
      cases hFound
    rw [hName] at hFound
    cases hTable : after.tableNamed? name with
    | none =>
        rw [hTable] at hFound
        cases hFound
        exact ensures_pure hSound ⟨hMirrors,
          hSound.deletes_of_unknown hTable, hName, by
            simp [hTable]⟩
    | some table =>
        rw [hTable] at hFound
        cases hFound
        exact ensures_deletedIn hFree hSound hMirrors policies
          hName hTable
  · rintro error after caches - - ⟨rfl, hMirrors, hEnd⟩
    refine ⟨hMirrors, fun _ => rfl,
      hEnd.symm.imp And.left fun hRefused hDeletable => ?_⟩
    rw [hDeletable.proper] at hRefused
    cases hRefused

/-
  What a request leaves under a key that has no item, at any
  time after others were deleted: a new item, with its own
  attributes only.
-/
def DefinesAnew
    (before : Contents)
    (later : Shared)
    (request : Define) : Prop :=
  later.contents.itemIn? request.table request.key = none →
    ∀ policies id last,
      (define policies request).advance later =
          (.finished (.ok id), last) →
        before.items.last < id ∧
          last.contents.metadata id =
            (NameMap.empty.setAll request.entries).normalized ∧
          ∀ policies, ∃ metadata final,
            (Session.get policies
                ⟨request.table, [request.key]⟩).advance
              (calm last) =
                (.finished (.ok ⟨[some metadata]⟩), final) ∧
            metadata.normalized =
              (NameMap.empty.setAll
                request.entries).normalized

theorem Reachable.definesAnew
    {shared later : Shared}
    (hReachable : Reachable shared)
    (hLeads : Leads ⟨shared, none⟩ ⟨later, none⟩)
    (request : Define) :
    DefinesAnew shared.contents later request := by
  intro hNone policies id last hOk
  have hLater : Reachable later := hReachable.trans hLeads
  rcases define_reads_back hLater hOk with
    ⟨hGet, hDefined, hFresh⟩
  have hEmpty : later.contents.metadataIn request.table
      request.key = .empty := by
    rw [Contents.metadataIn, hNone]
  have hMetadata := hDefined.metadata
  rw [hEmpty] at hMetadata hGet
  have hNew := hFresh hNone _ hReachable hLeads
  rw [Moment.committed, Engine.committed,
    show shared.store.engine.hold = none from
      hReachable.atRest.free] at hNew
  exact ⟨hNew, hMetadata, hGet⟩

/-
  A request to delete comes to an end.  If it succeeds, of
  the contents only the items under the keys are missing, and
  no key finds one.  If it fails, and calls of the store fail
  without effect, nothing has changed.  It fails for any key
  of a table that cannot be stored, and succeeds if there is
  none and nothing fails.  At any time after, what is defined
  under a key without an item is a new item that has its own
  attributes only.
-/
theorem delete_removes_exactly
    {shared : Shared}
    (hReachable : Reachable shared)
    (policies : Policies)
    {name : String}
    (hWord : Word.isWord name = true)
    (hFree : Word.isReserved name = false)
    (keys : List Scalar) :
    ∃ outcome after,
      (delete policies name keys).advance shared =
          (.finished outcome, after) ∧
      (outcome = .ok () →
        shared.contents.Deletes after.contents name keys ∧
          (∀ key ∈ keys,
            after.contents.itemIn? name key = none) ∧
          ∀ later, Leads ⟨after, none⟩ ⟨later, none⟩ →
            ∀ request,
              DefinesAnew shared.contents later request) ∧
      (∀ error, outcome = .error error →
        shared.store.faults.Within .early →
          after.contents = shared.contents) ∧
      ((shared.contents.tableNamed? name).isSome →
        (∃ key ∈ keys, key.isStorable = false) →
          ∃ error, outcome = .error error) ∧
      (shared.store.faults.Within .none →
        ((shared.contents.tableNamed? name).isSome →
          ∀ key ∈ keys, key.isStorable = true) →
            outcome = .ok ()) := by
  have hRest := hReachable.atRest
  have hName : Check.dictionary "Table" name = .ok () :=
    Contents.dictionary_eq_ok hWord hFree
  have hAdvance (trouble : Trouble)
      (hFaults : shared.store.faults.Within trouble) :=
    hRest.advance trouble hFaults (ensures_deleted rfl
      hRest.sound hRest.mirrors policies name keys)
  rcases hAdvance .any (fun _ _ => trivial) with
    ⟨outcome, after, hRun, -, hSound, -, hPost⟩
  have hLeads : Leads ⟨shared, none⟩ ⟨after, none⟩ := by
    have hCall := leads_of_runs
      (hRest.runs policies (.delete name keys))
    rw [Call.program, hRun] at hCall
    exact .head (.start policies _ shared) hCall
  refine ⟨outcome, after, hRun, ?_, ?_, ?_, ?_⟩
  · rintro rfl
    have hDeletes : shared.contents.Deletes after.contents
        name keys := hPost.1
    exact ⟨hDeletes, fun key hKey =>
      hDeletes.itemIn?_eq_none hSound hKey,
      fun later hLater request =>
        hReachable.definesAnew (hLeads.trans hLater) request⟩
  · rintro error rfl hEarly
    rcases hAdvance .early hEarly with
      ⟨_, _, hSame, -, -, -, hPost⟩
    rw [hRun] at hSame
    cases hSame
    exact hPost.1 (by simp [Setup.free])
  · rintro hKnown ⟨key, hKey, hNot⟩
    cases outcome with
    | error error => exact ⟨error, rfl⟩
    | ok _ =>
        have hStorable := hPost.2.storable hKnown key hKey
        rw [hNot] at hStorable
        cases hStorable
  · intro hNone hStorable
    rcases hAdvance .none hNone with
      ⟨_, _, hSame, -, -, -, hPost⟩
    rw [hRun] at hSame
    cases hSame
    cases outcome with
    | ok _ => rfl
    | error error =>
        rcases hPost.2 with hTrouble | hRefused
        · exact absurd rfl hTrouble
        · exact absurd ⟨hName, hStorable⟩ hRefused

/- A store with items under the numbers zero and one. -/
def withZeroAndOne : Shared :=
  let first := ((define default
    ⟨"t", .ofInt 0, [("a", some (.text "x"))]⟩).advance
      Moment.new.shared).2
  ((define default
    ⟨"t", .ofInt 1, [("a", some (.text "y"))]⟩).advance
      first).2

theorem reachable_withZeroAndOne :
    Reachable withZeroAndOne :=
  (Reachable.after_call .refl default (.define
    ⟨"t", .ofInt 0, [("a", some (.text "x"))]⟩)).after_call
      default (.define
        ⟨"t", .ofInt 1, [("a", some (.text "y"))]⟩)

/- The negative zero is zero too, and other keys are ignored. -/
theorem delete_removes_exactly_zero :
    ∃ after last,
      (delete default "t"
          [.number Number.zero.neg, .ofInt 7]).advance
            withZeroAndOne =
        (.finished (.ok ()), after) ∧
      withZeroAndOne.contents.Deletes after.contents "t"
        [.number Number.zero.neg, .ofInt 7] ∧
      after.contents.items.rows.map ItemRow.id = [2] ∧
      (define default
          ⟨"t", .ofInt 0, [("b", some (.text "z"))]⟩).advance
            after =
        (.finished (.ok 3), last) ∧
      last.contents.metadata 3 =
        (NameMap.empty.insert "b" (.text "z")) := by
  rcases delete_removes_exactly reachable_withZeroAndOne
    default (by decide +kernel : Word.isWord "t" = true)
    (by decide +kernel)
    [.number Number.zero.neg, .ofInt 7] with
    ⟨outcome, after, hRun, hOk, -⟩
  have hDone : ((delete default "t"
      [.number Number.zero.neg, .ofInt 7]).advance
        withZeroAndOne).1 = .finished (.ok ()) :=
    Progress.eq_of_result? (by decide +kernel)
  have hItems : ((delete default "t"
      [.number Number.zero.neg, .ofInt 7]).advance
        withZeroAndOne).2.contents.items.rows.map
          ItemRow.id = [2] := by
    decide +kernel
  have hAgain : ((define default
      ⟨"t", .ofInt 0, [("b", some (.text "z"))]⟩).advance
        ((delete default "t"
          [.number Number.zero.neg, .ofInt 7]).advance
            withZeroAndOne).2).1 = .finished (.ok 3) :=
    Progress.eq_of_result? (by decide +kernel)
  have hUnder : ((delete default "t"
      [.number Number.zero.neg, .ofInt 7]).advance
        withZeroAndOne).2.contents.itemIn? "t" (.ofInt 0) =
          none := by
    decide +kernel
  rw [hRun] at hDone hItems hAgain hUnder
  cases hDone
  rcases hOk rfl with ⟨hDeletes, -, hAnew⟩
  rcases hLast : (define default
      ⟨"t", .ofInt 0, [("b", some (.text "z"))]⟩).advance
        after with ⟨progress, last⟩
  rw [hLast] at hAgain
  cases hAgain
  exact ⟨after, last, hRun, hDeletes, hItems, hLast,
    (hAnew after .refl _ hUnder default 3 last hLast).2.1⟩

end Session

end SparseTables

import SparseTables.Proofs.Query.Deciding

/-
  This file shows what the plan of a query that does not
  count returns: the records that the query selects.

  Main declarations:
    * `Contents.Returns`
    * `Contents.Delivers`
    * `Contents.Sound.map_recordOf_of_finds`
    * `Contents.Sound.delivers_of_finds`
-/

namespace SparseTables

namespace Contents

variable {contents : Contents} {query : Select}
variable {table : Table} {rows : List JoinedRow}

------------------------------------------------------------
-- Rows
------------------------------------------------------------

/-
  Rows show the records that a query selects, each once, in
  the order asked for if no aliases clash, and up to the
  limit.
-/
def Returns
    (contents : Contents)
    (query : Select)
    (rows : List (List (Option Scalar))) : Prop :=
  ∃ found : List Record,
    found.Perm ((contents.records query.source).filter
      (contents.selects query)) ∧
    ((contents.planOf query).Distinct →
      found.Pairwise fun left right =>
        left.compareBy right query.orders ≠ .gt) ∧
    rows = (query.limited found).map (Record.shown query)

/-
  Records are those that a query selects, each once, and in
  the order asked for.
-/
structure Lists
    (contents : Contents)
    (query : Select)
    (found : List Record) : Prop where
  selected : found.Perm ((contents.records
    query.source).filter (contents.selects query))
  ordered : query.Orderly →
    found.Pairwise fun left right =>
      left.compareBy right query.orders ≠ .gt

/- Rows show such records, up to the limit. -/
def Delivers
    (contents : Contents)
    (query : Select)
    (rows : List (List (Option Scalar))) : Prop :=
  ∃ found : List Record, contents.Lists query found ∧
    rows = (query.limited found).map (Record.shown query)

theorem Delivers.returns
    {rows : List (List (Option Scalar))}
    (hDelivers : contents.Delivers query rows) :
    contents.Returns query rows := by
  rcases hDelivers with ⟨found, hLists, hRows⟩
  exact ⟨found, hLists.selected, fun hDistinct =>
    hLists.ordered (Plan.orderly_of_distinct hDistinct),
    hRows⟩

namespace Sound

/- Every row that a plan finds shows its item. -/
theorem shows_of_finds
    (hFinds : (contents.planOf query).Finds contents
      (Params.ofScalars query.params.entries) rows)
    {row : JoinedRow}
    (hRow : row ∈ rows) :
    row.item ∈ contents.items.rows ∧
      (contents.planOf query).filter.table =
        some row.item.tableId ∧
      (contents.planOf query).Shows contents row.item row := by
  rcases hFinds with ⟨made, rfl, hMade⟩
  rcases List.mem_filterMap.1 hRow with ⟨item, hItem, hIs⟩
  rcases hMade item hItem with ⟨hOther, hVerdict⟩
  by_cases hTable : (contents.planOf query).filter.table =
      some item.tableId
  · have hThis := hVerdict hTable
    rw [hIs] at hThis
    cases hThis with
    | found hCarries hMet hHolds =>
        rw [hCarries.same]
        exact ⟨hItem, hTable, wired_planOf.shows hCarries⟩
  · rw [hOther hTable] at hIs
    cases hIs

/- The rows that a plan finds are of the records selected. -/
theorem map_recordOf_of_finds
    (hSound : contents.Sound)
    (hFinds : (contents.planOf query).Finds contents
      (Params.ofScalars query.params.entries) rows) :
    rows.map (fun row => contents.recordOf row.item) =
      (contents.records query.source).filter
        (contents.selects query) := by
  rcases hFinds with ⟨made, rfl, hMade⟩
  have hRecord : ∀ item ∈ contents.items.rows,
      (made item).map (fun row =>
          contents.recordOf row.item) =
        if (contents.tableNamed? query.source).any (fun table =>
            item.tableId == table.id) &&
            contents.selects query (contents.recordOf item) then
          some (contents.recordOf item)
        else
          none := by
    intro item hItem
    rcases hMade item hItem with ⟨hOther, hVerdict⟩
    rw [table_planOf] at hOther hVerdict
    cases hTable : contents.tableNamed? query.source with
    | none =>
        rw [hOther (by simp [hTable])]
        rfl
    | some table =>
        rw [hTable] at hOther hVerdict
        by_cases hId : item.tableId = table.id
        · have hThis := hVerdict (by rw [hId]; rfl)
          have hSome := hSound.isSome_of_verdict hTable hItem
            hId hThis
          cases hFound : made item with
          | none =>
              rw [hFound] at hSome
              simp [← hSome]
          | some row =>
              rw [hFound] at hSome hThis
              cases hThis with
              | found hCarries hMet hHolds =>
                  simp [← hSome, hId, hCarries.same]
        · have hNot : ¬ table.id = item.tableId :=
            fun hSame => hId hSame.symm
          rw [hOther (by simpa using hNot)]
          simp [hId]
  rw [List.map_filterMap, List.filterMap_congr hRecord]
  unfold records
  cases contents.tableNamed? query.source with
  | none => simp
  | some table =>
      rw [List.filter_map, List.filter_filter,
        ← List.filterMap_eq_map, List.filterMap_filter]
      simp [Bool.and_comm]

/- What a column gives on a row that is found. -/
theorem eval_of_finds
    (hSound : contents.Sound)
    (hColumns : ∀ column ∈ query.columns,
      Word.sameLetters column "count" = false)
    (hFinds : (contents.planOf query).Finds contents
      (Params.ofScalars query.params.entries) rows)
    {row : JoinedRow}
    (hRow : row ∈ rows) :
    ∃ table,
      contents.tableNamed? query.source = some table ∧
      ∀ column ∈ query.columns,
        ((contents.scopeOf query table).output column).eval
            row =
          (contents.recordOf row.item).cell column := by
  rcases shows_of_finds hFinds hRow with
    ⟨hItem, hTable, hShows⟩
  rw [table_planOf] at hTable
  rcases Option.map_eq_some_iff.1 hTable with
    ⟨table, hTable, hId⟩
  exact ⟨table, hTable, fun column hColumn =>
    hSound.eval_output hTable hItem hId.symm hShows hColumn
      (hColumns column hColumn)⟩

/- The rows are sorted as their records are ordered. -/
theorem pairwise_of_finds
    (hSound : contents.Sound)
    (hCheck : query.check = .ok ())
    (hColumns : ∀ column ∈ query.columns,
      Word.sameLetters column "count" = false)
    (hOrderly : query.Orderly)
    (hFinds : (contents.planOf query).Finds contents
      (Params.ofScalars query.params.entries) rows)
    (searches : Searches) :
    ((contents.planOf query).sort contents searches
      rows).Pairwise fun left right =>
        (contents.recordOf left.item).compareBy
          (contents.recordOf right.item) query.orders ≠
            .gt := by
  by_cases hSome : query.orders = []
  · rw [hSome]
    exact List.pairwise_of_forall fun _ _ => by
      simp [Record.compareBy]
  have hFields := (Select.names_of_check hCheck).2.1
  have hPerm : ((contents.planOf query).sort contents searches
      rows).Perm rows :=
    Plan.perm_sort contents searches rows
  have hOutputs : ∀ key ∈ (contents.planOf query).orders,
      ∃ label descending, key = .output label descending :=
    fun key hKey => Plan.isOutput_of_mem_orders hSome hKey
  refine (Plan.pairwise_sort hOutputs contents searches
    rows).imp_of_mem ?_
  intro left right hLeft hRight hNot
  rcases hSound.eval_of_finds hColumns hFinds
    (hPerm.subset hLeft) with ⟨table, hTable, hLeft⟩
  rcases hSound.eval_of_finds hColumns hFinds
    (hPerm.subset hRight) with ⟨other, hOther, hRight⟩
  rw [hTable] at hOther
  cases hOther
  rw [planOf_eq hTable, Plan.compareBy_build
    (Plan.build_orders hSome) hOrderly hFields hLeft
    hRight] at hNot
  exact hNot

/- The rows of a plan that does not count show records. -/
theorem delivers_of_finds
    (hSound : contents.Sound)
    (hCheck : query.check = .ok ())
    (hColumns : ∀ column ∈ query.columns,
      Word.sameLetters column "count" = false)
    (hFinds : (contents.planOf query).Finds contents
      (Params.ofScalars query.params.entries) rows)
    (searches : Searches) :
    contents.Delivers query
      (((contents.planOf query).results contents searches
        rows).map fun row => row.cells.map Cell.scalar?) := by
  have hCounts : (contents.planOf query).counts = false :=
    Plan.counts_build hColumns
  have hPerm : ((contents.planOf query).sort contents searches
      rows).Perm rows :=
    Plan.perm_sort contents searches rows
  have hKept : (contents.planOf query).kept
      ((contents.planOf query).sort contents searches rows) =
        query.limited _ :=
    Plan.kept_build _
  have hResults : (contents.planOf query).results contents
      searches rows = ((contents.planOf query).kept
        ((contents.planOf query).sort contents searches
          rows)).map (contents.planOf query).row := by
    unfold Plan.results
    rw [hCounts]
    rfl
  refine ⟨((contents.planOf query).sort contents searches
    rows).map fun row => contents.recordOf row.item,
    ⟨?_, ?_⟩, ?_⟩
  · rw [← hSound.map_recordOf_of_finds hFinds]
    exact hPerm.map _
  · intro hOrderly
    rw [List.pairwise_map]
    exact hSound.pairwise_of_finds hCheck hColumns hOrderly
      hFinds searches
  · rw [hResults, hKept, Select.limited_map, List.map_map,
      List.map_map]
    refine List.map_congr_left fun row hRow => ?_
    rcases hSound.eval_of_finds hColumns hFinds
      (hPerm.subset (query.mem_of_mem_limited hRow)) with
      ⟨table, hTable, hCells⟩
    exact row_eq_shown hTable hCells

end Sound

end Contents

end SparseTables

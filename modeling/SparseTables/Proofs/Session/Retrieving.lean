import SparseTables.Proofs.Session.Keys
import SparseTables.Proofs.Session.Selecting

/-
  This file states what callers can rely on when they ask for
  the items of a query, at any time in the history of a store.

  The query is run for the identities and keys of its items,
  next to the columns that it orders by, and each item is then
  read by its identity.  If one of these columns is the count,
  the rows are counted instead and most items are lost.

  Main declarations:
    * `Select.itemsQuery`
    * `Select.SearchesAlone`
    * `Record.whole`
    * `Contents.respondRows_shown`
    * `Session.queryGet_gives_records`
    * `Session.queryGet_not_always_gives_records`
-/

namespace SparseTables

------------------------------------------------------------
-- Queries for items
------------------------------------------------------------

namespace Select

/- The query that finds the items of a query in order. -/
def itemsQuery (query : Select) : Select :=
  { query with columns := Session.itemColumns query }

variable {query : Select}

/- Identities and keys come first, and then what orders. -/
theorem itemColumns_eq (query : Select) :
    ∃ more, Session.itemColumns query =
        "id" :: "value" :: more ∧
      ∀ column ∈ more, ∃ order ∈ query.orders,
        order.field = column := by
  unfold Session.itemColumns
  have hFold (orders : List Order) (before : List String) :
      ∃ more, orders.foldl
          (fun columns order =>
            if columns.contains order.field then columns
            else columns ++ [order.field]) before =
          before ++ more ∧
        ∀ column ∈ more, ∃ order ∈ orders,
          order.field = column := by
    induction orders generalizing before with
    | nil => exact ⟨[], by simp, by simp⟩
    | cons order rest ih =>
        rw [List.foldl_cons]
        split
        · rcases ih before with ⟨more, hMore, hFields⟩
          exact ⟨more, hMore, fun column hColumn =>
            (hFields column hColumn).imp fun _ hOther =>
              ⟨.tail _ hOther.1, hOther.2⟩⟩
        · rcases ih (before ++ [order.field]) with
            ⟨more, hMore, hFields⟩
          refine ⟨order.field :: more,
            by rw [hMore, List.append_assoc]; rfl, ?_⟩
          rw [List.forall_mem_cons]
          exact ⟨⟨order, .head _, rfl⟩,
            fun column hColumn =>
              (hFields column hColumn).imp fun _ hOther =>
                ⟨.tail _ hOther.1, hOther.2⟩⟩
  rcases hFold query.orders ["id", "value"] with
    ⟨more, hMore, hFields⟩
  exact ⟨more, hMore, hFields⟩

/- A query for items counts only if it orders by counts. -/
theorem columns_itemsQuery
    (hOrders : ∀ order ∈ query.orders,
      Word.sameLetters order.field "count" = false) :
    ∀ column ∈ query.itemsQuery.columns,
      Word.sameLetters column "count" = false := by
  rcases query.itemColumns_eq with ⟨more, hColumns, hMore⟩
  have hSame : query.itemsQuery.columns =
      "id" :: "value" :: more :=
    hColumns
  rw [hSame, List.forall_mem_cons, List.forall_mem_cons]
  refine ⟨by decide +kernel, by decide +kernel, ?_⟩
  intro column hColumn
  rcases hMore column hColumn with ⟨order, hOrder, rfl⟩
  exact hOrders order hOrder

/- Is no search an alternative to other criteria? -/
def SearchesAlone (query : Select) : Prop :=
  ∀ group ∈ query.groups, ∀ part ∈ group.criteria,
    part.isSearch = true →
      group.combine = .all ∨ group.criteria = [part]

instance (query : Select) : Decidable query.SearchesAlone :=
  inferInstanceAs (Decidable (∀ group ∈ query.groups,
    ∀ part ∈ group.criteria, part.isSearch = true →
      group.combine = .all ∨ group.criteria = [part]))

end Select

/- Does a record of a table satisfy the groups of a query? -/
def Contents.satisfiesFrom
    (contents : Contents)
    (query : Select)
    (record : Record) : Bool :=
  (contents.tableNamed? query.source).any fun table =>
    contents.satisfies query table record

/- A text that is found is there. -/
theorem Contents.selects_eq_satisfiesFrom
    {contents : Contents}
    {query : Select}
    (hAlone : query.SearchesAlone)
    (record : Record) :
    contents.selects query record =
      contents.satisfiesFrom query record := by
  unfold selects satisfiesFrom
  cases contents.tableNamed? query.source with
  | none => rfl
  | some table =>
      rw [Option.any_some, Option.any_some, Bool.eq_iff_iff,
        Bool.and_eq_true, and_iff_left_iff_imp]
      intro hSatisfies
      unfold hasTexts
      rw [List.all_eq_true]
      intro part hPart
      rcases List.mem_flatMap.1 hPart with
        ⟨group, hGroup, hPart⟩
      by_cases hSearch : part.isSearch = true
      case neg => simp [hSearch]
      unfold satisfies at hSatisfies
      have hMeets := List.all_eq_true.1 hSatisfies group hGroup
      rw [Bool.or_eq_true, List.isEmpty_iff] at hMeets
      have hMeets := hMeets.resolve_left
        (List.ne_nil_of_mem hPart)
      have hFinds : contents.meets query table record part =
          true := by
        unfold meetsGroup at hMeets
        rcases hAlone group hGroup part hPart hSearch with
          hAll | hOnly
        · rw [hAll] at hMeets
          exact List.all_eq_true.1 hMeets part hPart
        · rw [hOnly] at hMeets
          cases hCombine : group.combine <;>
            simpa [hCombine] using hMeets
      rw [meets, hSearch, if_pos rfl, finds,
        Bool.and_eq_true] at hFinds
      have hText : (record.cell part.name).text?.isSome := by
        rcases Option.any_eq_true _ _ |>.1 hFinds.2 with
          ⟨text, hText, -⟩
        rw [hText]
        rfl
      rw [hText, Bool.or_true]

------------------------------------------------------------
-- What is given
------------------------------------------------------------

/- The attributes of a record with its identity and key. -/
def Record.whole (record : Record) (key : Scalar) : Metadata :=
  (record.metadata.insert "id" (.ofInt record.id)).insert
    "value" key

namespace Contents

variable {contents : Contents} {query : Select}

/- The rows of records are read back as these records. -/
theorem respondRows_shown
    (hSound : contents.Sound)
    (hExact : ∀ item ∈ contents.items.rows,
      Number.Exact item.id)
    {found : List Record}
    (hFound : ∀ record ∈ found,
      record ∈ contents.records query.source) :
    List.Forall₂
      (fun record entry => ∃ key, record.key = some key ∧
        entry = some (record.whole key).normalized)
      found
      (contents.respondRows
        (found.map (Record.shown query.itemsQuery))) := by
  induction found with
  | nil => exact .nil
  | cons record rest ih =>
      rw [List.forall_mem_cons] at hFound
      rcases mem_records_iff.1 hFound.1 with
        ⟨table, hTable, item, hItem, -, hRecord⟩
      rcases hSound.exists_record_key hTable hFound.1 with
        ⟨key, -, hKey, -, -, -, -⟩
      rcases query.itemColumns_eq with ⟨more, hColumns, -⟩
      have hSame : query.itemsQuery.columns =
          "id" :: "value" :: more :=
        hColumns
      have hShown : record.shown query.itemsQuery =
          some (.ofInt record.id) :: some key ::
            more.map fun column =>
              (record.cell column).scalar? := by
        rw [Record.shown, hSame, List.map_cons,
          List.map_cons, Record.cell_id, Record.cell_key,
          Cell.scalar?_ofOption, hKey]
        rfl
      have hId : (Number.ofInt record.id).toInt64 =
          item.id := by
        rw [← hRecord]
        exact Number.toInt64_ofInt (hExact item hItem)
      have hMetadata : contents.metadata item.id =
          record.metadata.normalized := by
        rw [← hRecord]
        exact (hSound.metadata_normalized hItem).symm
      rw [List.map_cons, hShown, Scalar.ofInt, respondRows]
      refine .cons ⟨key, hKey, ?_⟩ (ih hFound.2)
      have hWhole : (record.whole key).normalized =
          (record.metadata.normalized.insert "id"
            (Scalar.ofInt record.id).normalized).insert
              "value" key.normalized := by
        simp only [Record.whole, NameMap.normalized,
          NameMap.map_insert]
      rw [hId, hMetadata, hWhole]
      rfl

/- Items are given for the rows of the query for items. -/
theorem exists_of_respondQuery
    {response : GetResponse}
    (hRespond : contents.respondQuery query = .ok response) :
    ∃ answer,
      contents.select query.itemsQuery = .ok answer ∧
        response.items = contents.respondRows answer.rows := by
  unfold respondQuery at hRespond
  cases hAnswer : contents.select query.itemsQuery with
  | error error =>
      rw [Select.itemsQuery] at hAnswer
      rw [hAnswer] at hRespond
      cases hRespond
  | ok answer =>
      rw [Select.itemsQuery] at hAnswer
      rw [hAnswer] at hRespond
      exact ⟨answer, rfl,
        (congrArg GetResponse.items
          (Except.ok.inj hRespond)).symm⟩

end Contents

------------------------------------------------------------
-- Asking for items
------------------------------------------------------------

namespace Session

/-
  Whatever happens to the store, a response to a query that
  does not order by counts has one entry for each record that
  the query selects, up to its limit.  The entries are in the
  order asked for if every order goes by its own column, and
  an entry has what the record is read with and its identity
  and key.  The selected records are those that satisfy the
  query if none of its searches is an alternative.
-/
theorem queryGet_gives_records
    {shared after : Shared}
    (hReachable : Reachable shared)
    (hExact : ∀ item ∈ shared.contents.items.rows,
      Number.Exact item.id)
    {policies : Policies}
    {query : Select}
    (hOrders : ∀ order ∈ query.orders,
      Word.sameLetters order.field "count" = false)
    {response : GetResponse}
    (hOk : (queryGet policies query).advance shared =
      (.finished (.ok response), after)) :
    ∃ found : List Record,
      found.Perm ((shared.contents.records
        query.source).filter
          (shared.contents.selects query)) ∧
      (found.map Record.id).Nodup ∧
      (query.SearchesAlone →
        found.Perm ((shared.contents.records
          query.source).filter
            (shared.contents.satisfiesFrom query))) ∧
      (query.itemsQuery.Orderly →
        found.Pairwise fun left right =>
          left.compareBy right query.orders ≠ .gt) ∧
      List.Forall₂
        (fun record entry =>
          Reported shared query.source record ∧
          ∃ key, record.key = some key ∧
            entry = some (record.whole key).normalized)
        (query.limited found) response.normalized.items := by
  have hRest := hReachable.atRest
  have hSound : shared.contents.Sound := hRest.sound
  rcases hRest.advance .any (fun _ _ => trivial)
    (ensures_queryGet rfl hSound hRest.mirrors policies
      query) with
    ⟨outcome, last, hRun, -, -, -, -, hRight⟩
  rw [hOk] at hRun
  cases hRun
  have hRespond : .ok response.normalized =
      shared.contents.respondQuery query := by
    rcases hRight with hRight | ⟨-, error, hError⟩
    · exact hRight
    · cases hError
  rcases Contents.exists_of_respondQuery hRespond.symm with
    ⟨answer, hAnswer, hItems⟩
  have hName : Check.dictionary "Table" query.source =
      .ok () := by
    rcases Contents.check_of_select hAnswer with
      ⟨hCheck, hFree⟩
    exact Contents.dictionary_eq_ok
      (Select.names_of_check hCheck).1 hFree
  rcases hSound.delivers_of_select
    (Select.columns_itemsQuery hOrders) hAnswer with
    ⟨found, ⟨hPerm, hOrdered⟩, hRows⟩
  have hSelected : found.Perm ((shared.contents.records
      query.source).filter (shared.contents.selects query)) :=
    hPerm
  have hShown : answer.rows = (query.limited found).map
      (Record.shown query.itemsQuery) :=
    hRows
  have hRecords : ∀ record ∈ found,
      record ∈ shared.contents.records query.source :=
    fun record hRecord =>
      List.mem_of_mem_filter (hSelected.subset hRecord)
  refine ⟨found, hSelected, ?_, ?_, hOrdered, ?_⟩
  · exact (hSelected.map _).nodup_iff.2
      ((hSound.nodup_records query.source).sublist
        (List.filter_sublist.map _))
  · intro hAlone
    rwa [List.filter_congr fun record _ =>
      Contents.selects_eq_satisfiesFrom hAlone record]
      at hSelected
  · have hLimited : ∀ record ∈ query.limited found,
        record ∈ shared.contents.records query.source :=
      fun record hRecord => hRecords record
        (query.mem_of_mem_limited hRecord)
    have hEntries :=
      Contents.respondRows_shown hSound hExact hLimited
    rw [← hShown, ← hItems] at hEntries
    refine List.forall₂_iff_zip.2
      ⟨hEntries.length_eq, fun hPair => ⟨?_,
        (List.forall₂_iff_zip.1 hEntries).2 hPair⟩⟩
    exact hRest.reported hName
      (hLimited _ (List.of_mem_zip hPair).1)

/- A query for all items in the order of a column. -/
def itemsBy (field : String) : Select :=
  ((Select.on "t").column "value").order field false

/- An item is given that is ordered by an attribute. -/
theorem queryGet_gives_records_ordered :
    ∃ response after, ∃ found : List Record,
      (queryGet default (itemsBy "a")).advance started =
        (.finished (.ok response), after) ∧
      found.Perm (started.contents.records "t") ∧
      (found.Pairwise fun left right =>
        left.compareBy right [⟨"a", false⟩] ≠ .gt) ∧
      response.items =
        [some (((NameMap.empty.insert "a"
          (.text "x")).insert "id" (.ofInt 1)).insert
            "value" (.text "k"))] := by
  have hOk : ((queryGet default (itemsBy "a")).advance
      started).1 = .finished (.ok
        ⟨[some (((NameMap.empty.insert "a"
          (.text "x")).insert "id" (.ofInt 1)).insert
            "value" (.text "k"))]⟩) :=
    Progress.eq_of_result? (by decide +kernel)
  rcases hRun : (queryGet default (itemsBy "a")).advance
      started with ⟨progress, after⟩
  rw [hRun] at hOk
  cases hOk
  rcases queryGet_gives_records reachable_started
    (by decide +kernel) (by decide +kernel) hRun with
    ⟨found, hSelected, -, -, hOrdered, -⟩
  have hAll : (started.contents.records "t").filter
      (started.contents.selects (itemsBy "a")) =
        started.contents.records "t" := by
    decide +kernel
  rw [show (itemsBy "a").source = "t" from rfl, hAll]
    at hSelected
  exact ⟨_, after, found, rfl, hSelected,
    hOrdered (by decide +kernel), rfl⟩

/- A store with two items. -/
def withTwo : Shared :=
  ((define default ⟨"t", .text "b", []⟩).advance
    ((define default ⟨"t", .text "a", []⟩).advance
      Moment.new.shared).2).2

theorem reachable_withTwo : Reachable withTwo :=
  .after_call
    (.after_call .refl default (.define ⟨"t", .text "a", []⟩))
    default (.define ⟨"t", .text "b", []⟩)

/- Ordered by their count, two items are given as one. -/
theorem queryGet_not_always_gives_records :
    ¬ ∀ (shared after : Shared) (policies : Policies)
        (query : Select) (response : GetResponse),
      Reachable shared →
      query.groups = [] → query.limit = 0 →
      (queryGet policies query).advance shared =
        (.finished (.ok response), after) →
      response.items.length =
        (shared.contents.records query.source).length := by
  intro hAll
  have hOk : ((queryGet default (itemsBy "count")).advance
      withTwo).1 = .finished (.ok
        ⟨[some ((NameMap.empty.insert "id" (.ofInt 1)).insert
            "value" (.text "a"))]⟩) :=
    Progress.eq_of_result? (by decide +kernel)
  rcases hRun : (queryGet default (itemsBy "count")).advance
      withTwo with ⟨progress, after⟩
  rw [hRun] at hOk
  cases hOk
  have hLength := hAll withTwo after default
    (itemsBy "count") _ reachable_withTwo rfl rfl hRun
  revert hLength
  decide +kernel

end Session

end SparseTables

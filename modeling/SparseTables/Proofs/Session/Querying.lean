import SparseTables.Proofs.Session.Reading

/-
  This file shows what the calls give that run queries: the
  rows of the plan that the contents give rise to.

  Main declarations:
    * `Contents.compile`
    * `Contents.select`
    * `Contents.respondQuery`
    * `Session.ensures_compile`
    * `Session.ensures_select`
    * `Session.ensures_queryGet`
    * `Session.ensures_summarize`
    * `Session.ensures_schema`
-/

namespace SparseTables

------------------------------------------------------------
-- What the contents give
------------------------------------------------------------

namespace Contents

/- The attributes that a table has among columns. -/
def knownAmong (contents : Contents) (table : Table) :
    List String → Except Error (List (String × Attribute))
  | [] => pure []
  | column :: rest =>
      if Word.isReserved column then
        contents.knownAmong table rest
      else do
        Check.dictionary "Column" column
        let found :=
          contents.attributeNamed? table.id column
        let more ← contents.knownAmong table rest
        pure ((found.map fun row =>
          (column, row)).toList ++ more)

/- The plan and the parameters of a query. -/
def compile
    (contents : Contents)
    (query : Select) : Except Error (Plan × Params) := do
  query.check
  Check.dictionary "Table" query.source
  let table := contents.tableNamed? query.source
  let known ←
    match table with
    | some row => contents.knownAmong row query.referenced
    | none => pure []
  pure
    (Plan.build query table known,
      Params.ofScalars query.params.entries)

/- The rows of a query. -/
def select
    (contents : Contents)
    (query : Select) : Except Error ResultSet := do
  let (plan, params) ← contents.compile query
  let found ← plan.run contents params
  pure
    { columns := found.columns
      rows := found.rows.map fun row =>
        row.cells.map Cell.scalar? }

/- The items of rows that start with identity and key. -/
def respondRows (contents : Contents) :
    List (List (Option Scalar)) → List (Option Metadata)
  | [] => []
  | (some (.number id) :: some key :: _) :: rest =>
      let metadata := contents.metadata id.toInt64
      let whole :=
        (metadata.insert "id" (.number id.normalized)).insert
          "value" key.normalized
      some whole :: contents.respondRows rest
  | _ :: rest => contents.respondRows rest

/- The items of a query, each with its identity and key. -/
def respondQuery
    (contents : Contents)
    (query : Select) : Except Error GetResponse := do
  let found ← contents.select
    { query with columns := Session.itemColumns query }
  pure ⟨contents.respondRows found.rows⟩

end Contents

namespace Session

variable {setup : Setup}
variable {contents : Contents} {caches : Caches}

------------------------------------------------------------
-- Compiling
------------------------------------------------------------

theorem ensures_knownAmong
    (hFree : setup.saved = none)
    (hSound : contents.Sound)
    (hMirrors : caches.Mirrors contents)
    (policies : Policies)
    {table : Table}
    (hTable : table ∈ contents.tables.rows)
    (columns : List String) :
    (knownAmong policies table columns).Ensures setup
      contents caches
      (Program.Reads setup contents fun outcome =>
        outcome = contents.knownAmong table columns) := by
  induction columns generalizing caches with
  | nil => exact Program.ensures_reads_pure hSound hMirrors rfl
  | cons column rest ih =>
      unfold knownAmong Contents.knownAmong
      split
      · exact ih hMirrors
      · have hFindTable :=
          hSound.table?_eq_some_iff.2 ⟨hTable, rfl⟩
        have hHasTable :
            (contents.table? table.id).isSome := by
          simp [hFindTable]
        have hFirst := (Attributes.ensures_resolve hFree
          hSound hMirrors policies.rows hHasTable column
          .lookup false).mono
            fun _ _ _ _ _ hFinds => hFinds.reads
        refine Program.ensures_reads_both
          (fun found more => (found.map fun row =>
            (column, row)).toList ++ more) hFirst
          (fun caches hMirrors => ih hMirrors) ?_ ?_ ?_
        all_goals
          cases Check.dictionary "Column" column <;>
            cases contents.knownAmong table rest <;>
            simp [Except.map, bind, Except.bind, pure,
              Except.pure]

/- A query is compiled against what the contents know. -/
theorem ensures_compile
    (hFree : setup.saved = none)
    (hSound : contents.Sound)
    (hMirrors : caches.Mirrors contents)
    (policies : Policies)
    (query : Select) :
    (compile policies query).Ensures setup contents caches
      (Program.Reads setup contents fun outcome =>
        outcome = contents.compile query) := by
  unfold Contents.compile
  refine Program.ensures_check hSound ?_ ?_
  case refine_2 =>
    intro error hCheck
    exact ⟨rfl, hMirrors, Or.inl (by rw [hCheck]; rfl)⟩
  intro _ hCheck
  rw [hCheck]
  have hFirst := (Tables.ensures_resolve hFree hSound
    hMirrors policies.rows query.source .lookup
    false).mono fun _ _ _ _ _ hFinds => hFinds.reads
  apply hFirst.reads_bind
  · intro found caches hSound hMirrors hFound
    cases hSource : Check.dictionary "Table" query.source with
    | error error =>
        simp [hSource, Except.map] at hFound
    | ok _ =>
        have hTable :
            found = contents.tableNamed? query.source := by
          simpa [hSource, Except.map] using hFound
        subst hTable
        cases hTable : contents.tableNamed? query.source with
        | none =>
            exact Program.ensures_reads_pure hSound hMirrors
              rfl
        | some table =>
            have hRow :=
              (hSound.tableNamed?_eq_some_iff.1 hTable).1
            exact (ensures_knownAmong hFree hSound hMirrors
              policies hRow query.referenced).reads_then _
  · intro error hError
    cases hSource : Check.dictionary "Table" query.source with
    | ok _ => simp [hSource, Except.map] at hError
    | error other =>
        have hSame : error = other := by
          simpa [hSource, Except.map] using hError
        subst hSame
        rfl

------------------------------------------------------------
-- Running queries
------------------------------------------------------------

/- The store gives the rows of a plan. -/
theorem ensures_planned
    (hFree : setup.saved = none)
    (hSound : contents.Sound)
    (hMirrors : caches.Mirrors contents)
    (plan : Plan)
    (params : Params) :
    (Program.run (.select plan params)).Ensures setup
      contents caches
      (Program.Reads setup contents fun outcome =>
        outcome = plan.run contents params) := by
  apply Program.ensures_run hFree hSound
  intro outcome after hMay
  cases hRun : plan.run contents params with
  | error error =>
      cases hMay with
      | answered hSelect =>
          simp [Statement.run, hRun, Except.map] at hSelect
      | failed hSelect =>
          simp only [Statement.run, hRun, Except.map,
            Except.error.injEq] at hSelect
          exact ⟨hSound, rfl, hMirrors,
            Or.inl (by rw [hSelect])⟩
      | refused hTrouble error =>
          exact ⟨hSound, Program.reads_refused hMirrors
            hTrouble error⟩
      | lost hAny error hSelect =>
          simp [Statement.run, hRun, Except.map] at hSelect
  | ok found =>
      cases hMay with
      | answered hSelect =>
          simp only [Statement.run, hRun, Except.map,
            Except.ok.injEq, Prod.mk.injEq] at hSelect
          rcases hSelect with ⟨rfl, rfl⟩
          exact ⟨hSound, rfl, hMirrors, Or.inl rfl⟩
      | failed hSelect =>
          simp [Statement.run, hRun, Except.map] at hSelect
      | refused hTrouble error =>
          exact ⟨hSound, Program.reads_refused hMirrors
            hTrouble error⟩
      | lost hAny error hSelect =>
          simp only [Statement.run, hRun, Except.map,
            Except.ok.injEq, Prod.mk.injEq] at hSelect
          rcases hSelect with ⟨-, rfl⟩
          exact ⟨hSound, Program.reads_refused hMirrors
            (by simp [hAny]) error⟩

/- The rows of a query are those of its plan. -/
theorem ensures_select
    (hFree : setup.saved = none)
    (hSound : contents.Sound)
    (hMirrors : caches.Mirrors contents)
    (policies : Policies)
    (query : Select) :
    (select policies query).Ensures setup contents caches
      (Program.Reads setup contents fun outcome =>
        outcome = contents.select query) := by
  unfold Contents.select
  refine (ensures_compile hFree hSound hMirrors policies
    query).reads_bind ?_ ?_
  case refine_2 =>
    intro error hError
    rw [← hError]
    rfl
  intro compiled caches hSound hMirrors hPlan
  rcases compiled with ⟨plan, params⟩
  rw [← hPlan]
  exact (ensures_planned hFree hSound hMirrors plan
    params).reads_then _

theorem ensures_scalar
    (hFree : setup.saved = none)
    (hSound : contents.Sound)
    (hMirrors : caches.Mirrors contents)
    (policies : Policies)
    (query : Select) :
    (scalar policies query).Ensures setup contents caches
      (Program.Reads setup contents fun outcome =>
        outcome = do
          let found ← contents.select query
          pure (found.rows.head?.bind firstCell)) :=
  (ensures_select hFree hSound hMirrors policies
    query).reads_then _

theorem ensures_integer
    (hFree : setup.saved = none)
    (hSound : contents.Sound)
    (hMirrors : caches.Mirrors contents)
    (policies : Policies)
    (query : Select) :
    (integer policies query).Ensures setup contents caches
      (Program.Reads setup contents fun outcome =>
        outcome = do
          let found ← contents.select query
          integerOf (found.rows.head?.bind firstCell)) := by
  apply ((ensures_scalar hFree hSound hMirrors policies
    query).reads_then integerOf).reads_mono
  intro _ hSame
  subst hSame
  cases contents.select query <;> rfl

theorem ensures_list
    (hFree : setup.saved = none)
    (hSound : contents.Sound)
    (hMirrors : caches.Mirrors contents)
    (policies : Policies)
    (query : Select) :
    (list policies query).Ensures setup contents caches
      (Program.Reads setup contents fun outcome =>
        outcome = do
          let found ← contents.select query
          pure (found.rows.map firstCell)) :=
  (ensures_select hFree hSound hMirrors policies
    query).reads_then _

/- The first two columns of every row, if there are two. -/
def pairsOf (found : ResultSet) :
    Except Error (List (Option Scalar × Option Scalar)) :=
  if found.columns.length < 2 then
    .error (.validation .fewColumns)
  else
    .ok (found.rows.map fun row =>
      (firstCell row, firstCell (row.drop 1)))

theorem ensures_pairs
    (hFree : setup.saved = none)
    (hSound : contents.Sound)
    (hMirrors : caches.Mirrors contents)
    (policies : Policies)
    (query : Select) :
    (pairs policies query).Ensures setup contents caches
      (Program.Reads setup contents fun outcome =>
        outcome = contents.select query >>= pairsOf) := by
  apply (ensures_select hFree hSound hMirrors policies
    query).reads_bind
  · intro found caches hSound hMirrors hFound
    rw [← hFound]
    change (if found.columns.length < 2 then _
      else _ : Program _).Ensures _ _ _ _
    by_cases hFew : found.columns.length < 2
    · rw [if_pos hFew]
      exact Program.ensures_done hSound ⟨rfl, hMirrors,
        Or.inl (if_pos hFew).symm⟩
    · rw [if_neg hFew]
      exact Program.ensures_reads_pure hSound hMirrors
        (if_neg hFew).symm
  · intro error hError
    rw [← hError]
    rfl

/- The first column of the first row, or its name is wrong. -/
theorem ensures_rowId
    (hFree : setup.saved = none)
    (hSound : contents.Sound)
    (hMirrors : caches.Mirrors contents)
    (policies : Policies)
    (table : String)
    (key : Scalar) :
    (rowId policies table key).Ensures setup contents caches
      (Program.Reads setup contents fun outcome =>
        outcome = do
          Check.table table "get_row_id"
          let found ← contents.select
            (lookupQuery table "id" "value" key)
          integerOf (found.rows.head?.bind firstCell)) := by
  apply Program.ensures_check hSound
  · intro _ hCheck
    rw [hCheck]
    exact ensures_integer hFree hSound hMirrors policies _
  · intro error hCheck
    exact ⟨rfl, hMirrors, Or.inl (by rw [hCheck]; rfl)⟩

theorem ensures_rowValue
    (hFree : setup.saved = none)
    (hSound : contents.Sound)
    (hMirrors : caches.Mirrors contents)
    (policies : Policies)
    (table : String)
    (key : Int) :
    (rowValue policies table key).Ensures setup contents
      caches
      (Program.Reads setup contents fun outcome =>
        outcome = do
          Check.table table "get_row_value"
          let found ← contents.select
            (lookupQuery table "value" "id"
              (Scalar.ofInt key))
          pure (found.rows.head?.bind firstCell)) := by
  apply Program.ensures_check hSound
  · intro _ hCheck
    rw [hCheck]
    exact ensures_scalar hFree hSound hMirrors policies _
  · intro error hCheck
    exact ⟨rfl, hMirrors, Or.inl (by rw [hCheck]; rfl)⟩

------------------------------------------------------------
-- Calls that only read
------------------------------------------------------------

/- The items of rows are read, one after another. -/
theorem ensures_getRows
    (hFree : setup.saved = none)
    (hSound : contents.Sound)
    (hMirrors : caches.Mirrors contents)
    (rows : List (List (Option Scalar))) :
    (getRows rows).Ensures setup contents caches
      (Program.Reads setup contents fun outcome =>
        outcome.map
            (List.map (Option.map NameMap.normalized)) =
          .ok (contents.respondRows rows)) := by
  induction rows using getRows.induct generalizing
      caches with
  | case1 =>
      exact Program.ensures_reads_pure hSound hMirrors rfl
  | case2 id key _ rest ih =>
      rw [getRows, Contents.respondRows]
      refine (ensures_metadataOf hFree hSound hMirrors
        _).reads_bind ?_ (by rintro _ ⟨⟩)
      intro metadata caches _ hMirrors hMetadata
      refine (ih hMirrors).reads_bind ?_ (by rintro _ ⟨⟩)
      intro more caches hSound hMirrors hMore
      apply Program.ensures_reads_pure hSound hMirrors
      have hFound := Except.ok.inj hMetadata
      have hRest := Except.ok.inj hMore
      simp only [Except.map, List.map_cons, Option.map_some,
        hRest, ← hFound, NameMap.normalized,
        NameMap.map_insert, Scalar.normalized]
  | case3 row rest hOther ih =>
      rw [getRows.eq_3 row rest hOther,
        Contents.respondRows.eq_3 contents row rest hOther]
      exact ih hMirrors

/- The items of a query are what the contents say. -/
theorem ensures_queryGet
    (hFree : setup.saved = none)
    (hSound : contents.Sound)
    (hMirrors : caches.Mirrors contents)
    (policies : Policies)
    (query : Select) :
    (queryGet policies query).Ensures setup contents caches
      (Program.Reads setup contents fun outcome =>
        outcome.map GetResponse.normalized =
          contents.respondQuery query) := by
  unfold Contents.respondQuery
  refine (ensures_select hFree hSound hMirrors policies
    _).reads_bind ?_ ?_
  case refine_2 =>
    intro error hError
    rw [← hError]
    rfl
  intro found caches _ hMirrors hFound
  rw [← hFound]
  refine (ensures_getRows hFree hSound hMirrors
    found.rows).reads_bind ?_ (by rintro _ ⟨⟩)
  intro items caches hSound hMirrors hItems
  apply Program.ensures_reads_pure hSound hMirrors
  exact congrArg (Except.map GetResponse.mk) hItems

theorem ensures_summarize
    (hFree : setup.saved = none)
    (hSound : contents.Sound)
    (hMirrors : caches.Mirrors contents)
    (itemId : Int) :
    (summarize itemId).Ensures setup contents caches
      (Program.Reads setup contents fun _ => True) := by
  refine (Items.ensures_byId hFree hSound hMirrors
    itemId).reads_bind ?_ fun _ _ => trivial
  intro found caches _ hMirrors _
  refine Program.ensures_required hSound _ (fun item _ => ?_)
    fun _ => ⟨rfl, hMirrors, Or.inl trivial⟩
  refine (Tables.ensures_byId hFree hSound hMirrors
    item.tableId).reads_bind ?_ fun _ _ => trivial
  intro found caches _ hMirrors _
  refine Program.ensures_required hSound _ (fun table _ => ?_)
    fun _ => ⟨rfl, hMirrors, Or.inl trivial⟩
  refine (Values.ensures_byId hFree hSound hMirrors
    item.valueId).reads_bind ?_ fun _ _ => trivial
  intro found caches _ hMirrors _
  refine Program.ensures_required hSound _ (fun key _ => ?_)
    fun _ => ⟨rfl, hMirrors, Or.inl trivial⟩
  refine (ensures_metadataOf hFree hSound hMirrors
    itemId).reads_bind ?_ fun _ _ => trivial
  intro metadata caches hSound hMirrors _
  exact Program.ensures_reads_pure hSound hMirrors trivial

/- The attribute names of one table, or of all. -/
theorem ensures_schema
    (hFree : setup.saved = none)
    (hSound : contents.Sound)
    (hMirrors : caches.Mirrors contents)
    (table : Option String) :
    (schema table).Ensures setup contents caches
      (Program.Reads setup contents fun outcome =>
        outcome = .ok ⟨(Statement.schemaOf contents
          table).foldl addToSchema .empty⟩) :=
  Program.ensures_read_bind hFree hSound rfl
    (Program.ensures_reads_pure hSound hMirrors rfl)
    fun hTrouble error =>
      Program.reads_refused hMirrors hTrouble error

end Session

end SparseTables

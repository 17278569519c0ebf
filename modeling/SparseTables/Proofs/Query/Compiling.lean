import SparseTables.Proofs.Loops
import SparseTables.Proofs.Plan.Running
import SparseTables.Proofs.Query.Showing
import SparseTables.Proofs.Session.Querying

/-
  This file shows what an accepted query is compiled to, and
  that the outputs and orders of its plan are its columns and
  orders.

  Main declarations:
    * `Select.names_of_check`
    * `Contents.compile_eq`
    * `Select.Orderly`
    * `Plan.orderly_of_distinct`
    * `Plan.compareBy_build`
    * `Contents.Sound.eval_output`
    * `Contents.Sound.row_eq_shown`
-/

namespace SparseTables

------------------------------------------------------------
-- Accepted queries
------------------------------------------------------------

theorem Check.that_eq_ok_iff
    {holds : Bool}
    {fault : ValidationFault} :
    Check.that holds fault = .ok () ↔ holds = true := by
  cases holds <;> simp [Check.that]

namespace Select

variable {query : Select}

theorem limited_map
    {α β : Type}
    (make : α → β)
    (rows : List α) :
    query.limited (rows.map make) =
      (query.limited rows).map make := by
  unfold limited
  split
  · rfl
  · exact (List.map_take).symm

theorem mem_of_mem_limited
    {α : Type}
    (query : Select)
    {rows : List α}
    {row : α}
    (hRow : row ∈ query.limited rows) :
    row ∈ rows := by
  unfold limited at hRow
  split at hRow
  · exact hRow
  · exact List.mem_of_mem_take hRow

/- An accepted query names words, and orders what it shows. -/
theorem names_of_check (hCheck : query.check = .ok ()) :
    Word.isWord query.source = true ∧
    (∀ order ∈ query.orders,
      order.field ∈ query.columns) ∧
    ∀ column ∈ query.referenced,
      Word.isWord column = true := by
  unfold check at hCheck
  simp only [Except.then_eq_ok_iff, Check.that_eq_ok_iff,
    Except.forM_eq_ok_iff, Check.table, Check.column,
    Check.criterion] at hCheck
  rcases hCheck with
    ⟨-, -, hSource, -, hColumns, hOrders, hParts⟩
  have hFields : ∀ order ∈ query.orders,
      order.field ∈ query.columns :=
    fun order hOrder =>
      List.contains_iff_mem.1 (hOrders order hOrder)
  refine ⟨hSource, hFields, ?_⟩
  intro column hColumn
  rw [referenced, List.mem_eraseDups, List.mem_append,
    List.mem_append] at hColumn
  rcases hColumn with (hShown | hCompared) | hOrdered
  · exact hColumns column hShown
  · rcases List.mem_map.1 hCompared with ⟨part, hPart, rfl⟩
    exact (hParts part hPart).1
  · rcases List.mem_map.1 hOrdered with ⟨order, hOrder, rfl⟩
    exact hColumns order.field (hFields order hOrder)

end Select

------------------------------------------------------------
-- Compiling
------------------------------------------------------------

namespace Contents

variable {contents : Contents} {query : Select}

theorem dictionary_eq_ok
    {kind name : String}
    (hWord : Word.isWord name = true)
    (hFree : Word.isReserved name = false) :
    Check.dictionary kind name = .ok () := by
  unfold Check.dictionary
  rw [Except.then_eq_ok_iff, Check.that_eq_ok_iff,
    Check.that_eq_ok_iff, hFree]
  exact ⟨hWord, rfl⟩

/- The known attributes are looked up one by one. -/
theorem knownAmong_eq
    {columns : List String}
    (hWords : ∀ column ∈ columns,
      Word.isWord column = true)
    (table : Table) :
    contents.knownAmong table columns =
      .ok (contents.knownOf table columns) := by
  induction columns with
  | nil => rfl
  | cons first rest ih =>
      rw [List.forall_mem_cons] at hWords
      unfold knownAmong knownOf
      by_cases hWord : Word.isReserved first = true
      · simp only [hWord, if_true, List.filterMap_cons]
        exact ih hWords.2
      · rw [Bool.not_eq_true] at hWord
        rw [hWord, dictionary_eq_ok hWords.1 hWord,
          ih hWords.2, List.filterMap_cons, hWord]
        cases contents.attributeNamed? table.id first <;>
          rfl

/- An accepted query on a proper table has a plan. -/
theorem compile_eq
    (hCheck : query.check = .ok ())
    (hSource : Word.isReserved query.source = false) :
    contents.compile query =
      .ok (contents.planOf query,
        Params.ofScalars query.params.entries) := by
  rcases Select.names_of_check hCheck with
    ⟨hWord, -, hColumns⟩
  unfold compile planOf
  rw [hCheck, dictionary_eq_ok hWord hSource]
  cases contents.tableNamed? query.source with
  | none => rfl
  | some table =>
      simp only [knownAmong_eq hColumns]
      rfl

/- Only an accepted query on a proper table is answered. -/
theorem check_of_select
    {answer : ResultSet}
    (hAnswer : contents.select query = .ok answer) :
    query.check = .ok () ∧
      Word.isReserved query.source = false := by
  unfold Contents.select Contents.compile at hAnswer
  cases hCheck : query.check with
  | error error =>
      simp [hCheck, bind, Except.bind] at hAnswer
  | ok _ =>
      refine ⟨rfl, ?_⟩
      cases hName : Check.dictionary "Table" query.source with
      | error error =>
          simp [hCheck, hName, bind, Except.bind] at hAnswer
      | ok _ =>
          unfold Check.dictionary at hName
          rw [Except.then_eq_ok_iff, Check.that_eq_ok_iff,
            Check.that_eq_ok_iff] at hName
          simpa using hName.2

end Contents

------------------------------------------------------------
-- Orders
------------------------------------------------------------

/-
  Do two columns mean the same?  Reserved words do whatever
  the case of their letters.
-/
def Word.SameColumn (left right : String) : Prop :=
  left = right ∨
    isReserved left = true ∧ lower left = lower right

instance (left right : String) :
    Decidable (Word.SameColumn left right) :=
  inferInstanceAs (Decidable (_ ∨ _))

theorem Record.cell_eq_of_same
    (record : Record)
    {left right : String}
    (hSame : Word.SameColumn left right) :
    record.cell left = record.cell right := by
  rcases hSame with rfl | ⟨hLeft, hLower⟩
  · rfl
  · have hRight : Word.isReserved right = true := by
      rwa [Word.isReserved, ← hLower]
    unfold cell
    rw [hLower, hLeft, hRight]
    rfl

/- Identities are shown under either name. -/
example : Word.SameColumn "id" "ID" :=
  .inr ⟨by decide +kernel, by cbv⟩

namespace Select

/- The columns of a query with the aliases of their outputs. -/
def labels (query : Select) : List (String × String) :=
  query.columns.zip
    ((Plan.project ⟨none, []⟩ .empty query.columns).map
      Prod.snd)

/-
  Does every order go by what its column means?  An order
  names an alias, and goes by the first output that has the
  same letters.
-/
def Orderly (query : Select) : Prop :=
  ∀ order ∈ query.orders,
    ∀ label ∈ query.labels.lookup order.field,
      ∀ entry ∈ query.labels.find? (fun entry =>
          Word.sameLetters entry.2 label),
        Word.SameColumn entry.1 order.field

instance (query : Select) : Decidable query.Orderly :=
  inferInstanceAs (Decidable (∀ order ∈ query.orders,
    ∀ label ∈ query.labels.lookup order.field,
      ∀ entry ∈ query.labels.find? (fun entry =>
          Word.sameLetters entry.2 label),
        Word.SameColumn entry.1 order.field))

end Select

/- No column but the count stands for the count. -/
theorem Scope.output_eq_countAll_iff
    (scope : Scope)
    {column : String} :
    scope.output column = .countAll ↔
      Word.sameLetters column "count" = true := by
  have hExpr : scope.expr? column ≠ some .countAll := by
    unfold Scope.expr? Scope.pseudo?
    split
    · simp
    · cases scope.table <;>
        simp only [Option.map_none, Option.map_some] <;>
        split_ifs <;> simp
  unfold output
  split
  · simp [*]
  · rename_i hOther
    simp only [hOther, Bool.false_eq_true, iff_false]
    cases hFound : scope.expr? column with
    | none => simp
    | some expr =>
        rintro rfl
        exact hExpr hFound

namespace Plan

variable {query : Select} {table : Option Table}
variable {known : List (String × Attribute)}

/- The aliases of outputs depend on the columns alone. -/
theorem project_map_snd
    (scope other : Scope)
    (aliases : Aliases)
    (columns : List String) :
    (project scope aliases columns).map Prod.snd =
      (project other aliases columns).map Prod.snd := by
  induction columns generalizing aliases with
  | nil => rfl
  | cons first rest ih => simp [project, ih]

theorem outputs_eq
    (query : Select)
    (table : Option Table)
    (known : List (String × Attribute)) :
    (build query table known).outputs =
      query.labels.map fun entry =>
        ((query.scope table known).output entry.1,
          entry.2) := by
  have hZip (aliases : Aliases) (columns : List String) :
      project (query.scope table known) aliases columns =
        (columns.zip ((project ⟨none, []⟩ aliases
          columns).map Prod.snd)).map fun entry =>
            ((query.scope table known).output entry.1,
              entry.2) := by
    induction columns generalizing aliases with
    | nil => rfl
    | cons first rest ih => simp [project, ← ih]
  exact hZip .empty query.columns

theorem outputOrders_eq
    (query : Select)
    (table : Option Table)
    (known : List (String × Attribute)) :
    outputOrders query (build query table known).outputs =
      query.orders.filterMap fun order =>
        (query.labels.lookup order.field).map fun label =>
          .output label order.descending := by
  unfold outputOrders Select.labels
  rw [build_outputs, project_map_snd _ ⟨none, []⟩]

/- A column is found with an alias of its own output. -/
theorem exists_lookup_zip
    {output : String → Expr}
    {columns : List String}
    {outputs : List (Expr × String)}
    (hOutputs : outputs.map Prod.fst = columns.map output)
    {column : String}
    (hColumn : column ∈ columns) :
    ∃ label,
      (columns.zip (outputs.map Prod.snd)).lookup column =
          some label ∧
        (output column, label) ∈ outputs := by
  induction columns generalizing outputs with
  | nil => cases hColumn
  | cons first rest ih =>
      rw [List.map_cons] at hOutputs
      rcases List.map_eq_cons_iff.1 hOutputs with
        ⟨⟨expr, label⟩, more, rfl, hExpr, hMore⟩
      have hExpr : expr = output first := hExpr
      rw [List.map_cons, List.zip_cons_cons,
        lookup_cons_eq]
      by_cases hSame : column = first
      · refine ⟨label, by simp [hSame], ?_⟩
        rw [hSame, ← hExpr]
        exact List.mem_cons_self
      · have hRest : column ∈ rest := by
          simpa [hSame] using hColumn
        rcases ih hMore hRest with ⟨other, hFind, hMem⟩
        exact ⟨other, by simpa [hSame] using hFind,
          List.mem_cons_of_mem _ hMem⟩

/- An alias of an output names this output. -/
theorem outputNamed?_eq
    {plan : Plan}
    (hDistinct : plan.Distinct)
    {output : Expr × String}
    (hOutput : output ∈ plan.outputs) :
    plan.outputNamed? output.2 = some output.1 := by
  have hFind : plan.outputs.find?
      (fun other => Word.sameLetters other.2 output.2) =
      some output := by
    rw [find?_eq_some_iff_of_unique]
    · exact ⟨hOutput, (sameLetters_iff _ _).2 rfl⟩
    · intro first hFirst second hSecond hLeft hRight
      rw [sameLetters_iff] at hLeft hRight
      have hNodup := hDistinct.columns
      rw [columns, List.map_map] at hNodup
      exact List.inj_on_of_nodup_map hNodup hFirst hSecond
        (hLeft.trans hRight.symm)
  rw [outputNamed?, hFind]
  rfl

/- The first output of a column stands for the column. -/
theorem exists_output
    (hDistinct : (build query table known).Distinct)
    {column : String}
    (hColumn : column ∈ query.columns) :
    ∃ label,
      (query.columns.zip
          ((build query table known).outputs.map
            Prod.snd)).lookup column = some label ∧
        (build query table known).outputNamed? label =
          some ((query.scope table known).output column) := by
  rcases exists_lookup_zip (project_map_fst
      (query.scope table known) .empty query.columns)
      hColumn with ⟨label, hLookup, hMem⟩
  exact ⟨label, hLookup, outputNamed?_eq hDistinct hMem⟩

/-
  A query that is orderly has an output for each order, of a
  column that means the same.
-/
theorem exists_ordered
    (hOrderly : query.Orderly)
    {order : Order}
    (hOrder : order ∈ query.orders)
    (hField : order.field ∈ query.columns) :
    ∃ label, query.labels.lookup order.field = some label ∧
      ∃ column ∈ query.columns,
        Word.SameColumn column order.field ∧
        (build query table known).outputNamed? label =
          some ((query.scope table known).output column) := by
  have hOutputs := outputs_eq query table known
  rcases exists_lookup_zip (project_map_fst
      (query.scope table known) .empty query.columns)
      hField with ⟨label, hLookup, hMem⟩
  rw [project_map_snd _ ⟨none, []⟩] at hLookup
  have hSome : (query.labels.find? fun entry =>
      Word.sameLetters entry.2 label).isSome := by
    rw [← build_outputs, hOutputs] at hMem
    rcases List.mem_map.1 hMem with ⟨entry, hEntry, hSame⟩
    rw [List.find?_isSome]
    have hLabel : entry.2 = label := congrArg Prod.snd hSame
    exact ⟨entry, hEntry,
      (sameLetters_iff _ _).2 (congrArg _ hLabel)⟩
  rcases Option.isSome_iff_exists.1 hSome with
    ⟨entry, hFind⟩
  refine ⟨label, hLookup, entry.1,
    (List.of_mem_zip (List.mem_of_find?_eq_some hFind)).1,
    hOrderly order hOrder label hLookup entry hFind, ?_⟩
  rw [outputNamed?, hOutputs, List.find?_map]
  exact congrArg (Option.map _) (congrArg (Option.map _) hFind)

/- Where aliases are distinct, every order has its output. -/
theorem orderly_of_distinct
    (hDistinct : (build query table known).Distinct) :
    query.Orderly := by
  intro order _ label hLookup entry hFind
  have hNodup := hDistinct.columns
  rw [columns, outputs_eq, List.map_map, List.map_map]
    at hNodup
  have hSame := List.find?_some hFind
  rw [sameLetters_iff] at hSame
  exact .inl (congrArg Prod.fst (List.inj_on_of_nodup_map
    hNodup (List.mem_of_find?_eq_some hFind)
    (mem_of_lookup hLookup) hSame))

/- Rows compare as their outputs do. -/
theorem compareBy_build
    (hOrders : (build query table known).orders =
      outputOrders query (build query table known).outputs)
    (hOrderly : query.Orderly)
    (hFields : ∀ order ∈ query.orders,
      order.field ∈ query.columns)
    {left right : JoinedRow}
    {leftRecord rightRecord : Record}
    (hLeft : ∀ column ∈ query.columns,
      ((query.scope table known).output column).eval left =
        leftRecord.cell column)
    (hRight : ∀ column ∈ query.columns,
      ((query.scope table known).output column).eval right =
        rightRecord.cell column)
    (score : String → JoinedRow → Float) :
    (build query table known).compareBy score left right
        (build query table known).orders =
      leftRecord.compareBy rightRecord query.orders := by
  have hOrdered : ∀ order ∈ query.orders, ∃ label,
      query.labels.lookup order.field = some label ∧
        ∃ column ∈ query.columns,
          Word.SameColumn column order.field ∧
          (build query table known).outputNamed? label =
            some ((query.scope table known).output column) :=
    fun order hOrder => exists_ordered hOrderly hOrder
      (hFields order hOrder)
  rw [hOrders, outputOrders_eq]
  clear hOrders hOrderly hFields
  generalize query.orders = orders at hOrdered
  induction orders with
  | nil => rfl
  | cons order rest ih =>
      rw [List.forall_mem_cons] at hOrdered
      rcases hOrdered.1 with
        ⟨label, hLookup, column, hColumn, hSame, hOutput⟩
      simp only [List.filterMap_cons, hLookup,
        Option.map_some, compareBy, hOutput,
        Record.compareBy, hLeft _ hColumn, hRight _ hColumn,
        Record.cell_eq_of_same _ hSame, ih hOrdered.2]

theorem isOutput_of_mem_orders
    (hSome : query.orders ≠ [])
    {key : OrderKey}
    (hKey : key ∈ (build query table known).orders) :
    ∃ label descending, key = .output label descending := by
  rw [build_orders hSome] at hKey
  rcases List.mem_filterMap.1 hKey with ⟨order, -, hOrder⟩
  rcases Option.map_eq_some_iff.1 hOrder with
    ⟨label, -, rfl⟩
  exact ⟨label, order.descending, rfl⟩

theorem counts_build_eq :
    (build query table known).counts =
      query.columns.any (Word.sameLetters · "count") := by
  have hFst : (build query table known).counts =
      ((build query table known).outputs.map Prod.fst).any
        (· = .countAll) := by
    rw [counts, List.any_map]
    rfl
  rw [hFst, build_outputs, project_map_fst, List.any_map,
    Bool.eq_iff_iff]
  simp only [List.any_eq_true, Function.comp_apply,
    decide_eq_true_iff, Scope.output_eq_countAll_iff]

/- No column but the count counts. -/
theorem counts_build
    (hColumns : ∀ column ∈ query.columns,
      Word.sameLetters column "count" = false) :
    (build query table known).counts = false := by
  rw [counts_build_eq, List.any_eq_false]
  intro column hColumn
  rw [hColumns column hColumn]
  exact Bool.false_ne_true

theorem kept_build
    {α : Type}
    (rows : List α) :
    (build query table known).kept rows =
      query.limited rows := by
  unfold kept Select.limited build
  by_cases hLimit : query.limit = 0
  · simp [hLimit]
  · simp [hLimit]

end Plan

------------------------------------------------------------
-- Rows
------------------------------------------------------------

theorem Contents.mem_records_iff
    {contents : Contents}
    {source : String}
    {record : Record} :
    record ∈ contents.records source ↔
      ∃ table, contents.tableNamed? source = some table ∧
        ∃ item ∈ contents.items.rows,
          item.tableId = table.id ∧
            contents.recordOf item = record := by
  unfold records
  cases contents.tableNamed? source with
  | none => simp
  | some table => simp [and_assoc]

theorem Contents.table_planOf
    {contents : Contents}
    {query : Select} :
    (contents.planOf query).filter.table =
      (contents.tableNamed? query.source).map Table.id :=
  rfl

namespace Contents.Sound

variable {contents : Contents} {query : Select}
variable {table : Table}

/- What a column gives on the row of an item. -/
theorem eval_output
    (hSound : contents.Sound)
    (hTable : contents.tableNamed? query.source = some table)
    {item : ItemRow}
    (hItem : item ∈ contents.items.rows)
    (hId : item.tableId = table.id)
    {row : JoinedRow}
    (hRow : (contents.planOf query).Shows contents item row)
    {column : String}
    (hColumn : column ∈ query.columns)
    (hCount : Word.sameLetters column "count" = false) :
    ((contents.scopeOf query table).output column).eval row =
      (contents.recordOf item).cell column := by
  have hMentioned : column ∈ query.referenced := by
    rw [Select.referenced, List.mem_eraseDups]
    exact List.mem_append_left _
      (List.mem_append_left _ hColumn)
  rw [Scope.output, hCount, if_neg Bool.false_ne_true]
  cases hExpr :
      (contents.scopeOf query table).expr? column with
  | none =>
      exact (hSound.cell_eq_null hItem hId hMentioned
        hExpr).symm
  | some expr =>
      exact hSound.eval_expr hTable hItem hId hRow hMentioned
        hExpr

/- The cells of a row are those that a query shows. -/
theorem row_eq_shown
    (hTable : contents.tableNamed? query.source = some table)
    {row : JoinedRow}
    {record : Record}
    (hCells : ∀ column ∈ query.columns,
      ((contents.scopeOf query table).output column).eval
        row = record.cell column) :
    ((contents.planOf query).row row).cells.map
        Cell.scalar? =
      record.shown query := by
  have hOutputs :
      (contents.planOf query).outputs.map Prod.fst =
        query.columns.map
          (contents.scopeOf query table).output := by
    rw [planOf_eq hTable, Plan.build_outputs,
      Plan.project_map_fst]
    rfl
  have hRow : ((contents.planOf query).row row).cells =
      ((contents.planOf query).outputs.map Prod.fst).map
        (Expr.eval row) := by
    rw [List.map_map]
    rfl
  rw [hRow, hOutputs, List.map_map, List.map_map,
    Record.shown]
  refine List.map_congr_left fun column hColumn => ?_
  exact congrArg Cell.scalar? (hCells column hColumn)

/- No two records of a table are of one item. -/
theorem nodup_records
    (hSound : contents.Sound)
    (source : String) :
    ((contents.records source).map Record.id).Nodup := by
  unfold records
  cases contents.tableNamed? source with
  | none => exact List.nodup_nil
  | some table =>
      rw [List.map_map]
      exact hSound.items.nodup.sublist
        (List.filter_sublist.map ItemRow.id)

end Contents.Sound

end SparseTables

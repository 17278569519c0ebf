import SparseTables.Proofs.Query.Rendering
import SparseTables.Proofs.Session.Dropping
import SparseTables.Proofs.Session.Naming

/-
  This file states what callers can rely on when they compile
  a query, whatever the store and the caches hold.

  A query that passes its check has a plan, unless its table
  has a reserved name.  The check lets such a name pass, and
  the dictionary of tables refuses it.  What the dictionaries
  do not hold is no error: it is written as NULL among the
  outputs and as 1 = 0 among the conditions.

  Main declarations:
    * `Caches.planIn`
    * `Caches.knows`
    * `Plan.Blanks`
    * `Session.ends_compile`
    * `Session.accepted_queries_compile`
    * `Session.accepted_queries_not_always_compile`
-/

namespace SparseTables

open Program

------------------------------------------------------------
-- What the dictionaries hold
------------------------------------------------------------

namespace Caches

variable (caches : Caches) (contents : Contents)

/- The table of a name: one that is kept, or the stored one. -/
def tableIn? (name : String) : Option Table :=
  (caches.tables.get? name).or (contents.tableNamed? name)

/- The attribute of a name, kept or stored. -/
def attributeIn?
    (tableId : Int)
    (name : String) : Option Attribute :=
  (caches.attributes.get? (tableId, name)).or
    (contents.attributeNamed? tableId name)

/- The attributes that are held of a table, among columns. -/
def knownIn
    (table : Table)
    (columns : List String) : List (String × Attribute) :=
  columns.filterMap fun column =>
    if Word.isReserved column then
      none
    else
      (caches.attributeIn? contents table.id column).map
        fun row => (column, row)

/- The plan of a query. -/
def planIn (query : Select) : Plan :=
  let table := caches.tableIn? contents query.source
  Plan.build query table
    (table.elim [] fun row =>
      caches.knownIn contents row query.referenced)

/-
  Does a column have a meaning on a table?  Items have their
  identities and times even if the table is unknown.
-/
def knows (source column : String) : Bool :=
  ["id", "created", "lastmodified"].contains
      (Word.lower column) ||
    (caches.tableIn? contents source).any fun table =>
      Word.isKey column ||
        (!Word.isReserved column &&
          (caches.attributeIn? contents table.id
            column).isSome)

end Caches

/- A row under a key that is free is kept. -/
theorem Keeper.get?_keep_of_free
    {κ ρ : Type}
    [DecidableEq κ]
    [Keyed ρ κ]
    {keeper : Keeper κ ρ}
    {row : ρ}
    (hFree : keeper.get? (Keyed.key row) = none)
    (key : κ) :
    (keeper.keep row).2.get? key =
      if key = Keyed.key row then some row
      else keeper.get? key := by
  unfold keep
  rw [hFree]
  unfold get?
  by_cases hSame : key = Keyed.key row
  · simp [hSame]
  · rw [if_neg hSame, List.lookup_cons,
      beq_false_of_ne hSame]

------------------------------------------------------------
-- Looking up
------------------------------------------------------------

variable {clock : Clock} {contents : Contents}

/- A table is looked up, and the attributes stay as they are. -/
theorem Tables.ends_lookup
    (policy : Policy)
    {name : String}
    (hName : Check.dictionary "Table" name = .ok ())
    (caches : Caches) :
    ∃ kept,
      (resolve policy name .lookup false).Ends clock
        (.ofContents contents) caches
        (.ok (caches.tableIn? contents name))
        (.ofContents contents) kept ∧
      kept.attributes = caches.attributes := by
  unfold Caches.tableIn?
  cases hGet : caches.tables.get? name with
  | some kept =>
      refine ⟨caches, (ends_check hName).bind
        (ends_caches ?_), rfl⟩
      rw [hGet]
      exact ends_done _
  | none =>
      cases hFind : contents.tableNamed? name with
      | none =>
          refine ⟨caches, (ends_check hName).bind
            (ends_caches ?_), rfl⟩
          rw [hGet]
          refine Ends.attempts _ _ ((ends_run rfl).bind ?_)
          rw [hFind]
          exact ends_done _
      | some row =>
          have hRow : row.name = name := by
            simpa using List.find?_some hFind
          subst hRow
          have hKept : (caches.tables.keep row).2.get?
              row.name = some row := by
            rw [Keeper.get?_keep_of_free hGet]
            exact if_pos rfl
          refine ⟨{ caches with
              tables := (caches.tables.keep row).2 },
            (ends_check hName).bind (ends_caches ?_), rfl⟩
          rw [hGet]
          refine Ends.attempts _ _ ((ends_run rfl).bind ?_)
          rw [hFind]
          refine Ends.bind (ends_cached ?_)
            (ends_done _)
          dsimp only
          rw [hKept]
          exact ends_done _

/- To look an attribute up changes no attribute that is held. -/
theorem Attributes.ends_lookup
    (policy : Policy)
    {name : String}
    (hName : Check.dictionary "Column" name = .ok ())
    (tableId : Int)
    (caches : Caches) :
    ∃ kept,
      (resolve policy tableId name .lookup false).Ends clock
        (.ofContents contents) caches
        (.ok (caches.attributeIn? contents tableId name))
        (.ofContents contents) kept ∧
      kept.attributeIn? contents =
        caches.attributeIn? contents := by
  cases hGet : caches.attributes.get? (tableId, name) with
  | some kept =>
      refine ⟨caches, (ends_check hName).bind
        (ends_caches ?_), rfl⟩
      rw [Caches.attributeIn?, hGet]
      exact ends_done _
  | none =>
      cases hFind : contents.attributeNamed? tableId name with
      | none =>
          refine ⟨caches, (ends_check hName).bind
            (ends_caches ?_), rfl⟩
          rw [Caches.attributeIn?, hGet, hFind]
          refine Ends.attempts _ _ ((ends_run rfl).bind ?_)
          rw [hFind]
          exact ends_done _
      | some row =>
          have hRow : row.tableId = tableId ∧
              row.name = name := by
            simpa using List.find?_some hFind
          rcases hRow with ⟨rfl, rfl⟩
          have hKeep (key : Int × String) :
              (caches.attributes.keep row).2.get? key =
                if key = (row.tableId, row.name) then some row
                else caches.attributes.get? key :=
            Keeper.get?_keep_of_free hGet key
          refine ⟨{ caches with
              attributes := (caches.attributes.keep row).2 },
            (ends_check hName).bind (ends_caches ?_), ?_⟩
          · rw [Caches.attributeIn?, hGet, hFind]
            refine Ends.attempts _ _
              ((ends_run rfl).bind ?_)
            rw [hFind]
            refine Ends.bind (ends_cached ?_)
              (ends_done _)
            dsimp only
            rw [(hKeep (row.tableId, row.name)).trans
              (if_pos rfl)]
            exact ends_done _
          · funext otherId other
            unfold Caches.attributeIn?
            rw [hKeep]
            split
            · rename_i hSame
              cases hSame
              rw [hGet, hFind]
              rfl
            · rfl

namespace Session

/- The known attributes are those that are held. -/
theorem ends_knownAmong
    (policies : Policies)
    (table : Table)
    {columns : List String}
    (hWords : ∀ column ∈ columns,
      Word.isWord column = true)
    (caches : Caches) :
    ∃ kept,
      (knownAmong policies table columns).Ends clock
        (.ofContents contents) caches
        (.ok (caches.knownIn contents table columns))
        (.ofContents contents) kept := by
  induction columns generalizing caches with
  | nil => exact ⟨caches, ends_done _⟩
  | cons column rest ih =>
      rw [List.forall_mem_cons] at hWords
      unfold knownAmong Caches.knownIn
      rw [List.filterMap_cons]
      by_cases hWord : Word.isReserved column = true
      · rw [if_pos hWord, if_pos hWord]
        exact ih hWords.2 caches
      · rw [if_neg hWord, if_neg hWord]
        have hName : Check.dictionary "Column" column =
            .ok () :=
          Contents.dictionary_eq_ok hWords.1
            (by simpa using hWord)
        obtain ⟨between, hFirst, hSame⟩ :=
          @Attributes.ends_lookup clock contents policies.rows
            column hName table.id caches
        rcases ih hWords.2 between with ⟨kept, hRest⟩
        refine ⟨kept, hFirst.bind (hRest.bind ?_)⟩
        rw [Caches.knownIn, hSame]
        cases caches.attributeIn? contents table.id column
        · exact ends_done _
        · exact ends_done _

/- An accepted query on a proper table has a plan. -/
theorem ends_compile
    (policies : Policies)
    {query : Select}
    (hCheck : query.check = .ok ())
    (hSource : Word.isReserved query.source = false)
    (caches : Caches) :
    ∃ kept,
      (compile policies query).Ends clock
        (.ofContents contents) caches
        (.ok (caches.planIn contents query,
          Params.ofScalars query.params.entries))
        (.ofContents contents) kept := by
  rcases Select.names_of_check hCheck with
    ⟨hWord, -, hColumns⟩
  obtain ⟨between, hTable, hAttributes⟩ :=
    @Tables.ends_lookup clock contents policies.rows
      query.source (Contents.dictionary_eq_ok hWord hSource)
      caches
  have hSame (table : Table) :
      between.knownIn contents table =
        caches.knownIn contents table := by
    unfold Caches.knownIn Caches.attributeIn?
    rw [hAttributes]
  unfold Caches.planIn
  cases hFind : caches.tableIn? contents query.source with
  | none =>
      rw [hFind] at hTable
      exact ⟨between, (ends_check hCheck).bind
        (hTable.bind (Ends.bind (ends_done (.ok []))
          (ends_done _)))⟩
  | some table =>
      rw [hFind] at hTable
      obtain ⟨kept, hKnown⟩ :=
        @ends_knownAmong clock contents policies table
          query.referenced hColumns between
      rw [hSame] at hKnown
      exact ⟨kept, (ends_check hCheck).bind
        (hTable.bind (hKnown.bind (ends_done _)))⟩

end Session

------------------------------------------------------------
-- What is not held
------------------------------------------------------------

/-
  What is not known is written as NULL among the outputs and
  as false among the conditions.
-/
structure Plan.Blanks
    (plan : Plan)
    (query : Select)
    (knows : String → Bool) : Prop where
  outputs : List.Forall₂
    (fun column output =>
      Word.sameLetters column "count" = false →
        knows column = false →
          output.1.render = "NULL")
    query.columns plan.outputs
  conditions : List.Forall₂
    (fun group made => made.1 = group.combine ∧
      List.Forall₂
        (fun part predicate => knows part.name = false →
          predicate.render = "1 = 0")
        group.criteria made.2)
    (query.groups.filter fun group =>
      !group.criteria.isEmpty)
    plan.filter.groups

namespace Caches

variable {caches : Caches} {query : Select}

/- Only a column that is known stands for something. -/
theorem blank_of_unknown
    {scope : Scope}
    (hTable : scope.table =
      caches.tableIn? contents query.source)
    (hBound : ∀ bound ∈ scope.bound, ∃ table,
      scope.table = some table ∧
        Word.isReserved bound.column = false ∧
        caches.attributeIn? contents table.id bound.column =
          some bound.known)
    {column : String}
    (hUnknown : caches.knows contents query.source column =
      false) :
    scope.expr? column = none ∧
      scope.source? column = none := by
  unfold knows at hUnknown
  rw [Bool.or_eq_false_iff, ← hTable] at hUnknown
  rcases hUnknown with ⟨hWord, hColumn⟩
  have hFind : scope.find? column = none := by
    cases hFound : scope.find? column with
    | none => rfl
    | some bound =>
        rcases Scope.mem_of_find? hFound with ⟨hMem, rfl⟩
        rcases hBound bound hMem with
          ⟨table, hIs, hFree, hHeld⟩
        simp [hIs, hFree, hHeld] at hColumn
  have hKey : Word.isKey column = true →
      scope.table = none := by
    intro hKey
    cases hIs : scope.table with
    | none => rfl
    | some table => simp [hIs, hKey] at hColumn
  constructor
  · rw [Scope.expr?, hFind]
    simp only [List.contains_cons, List.contains_nil,
      Bool.or_false, Bool.or_eq_false_iff, beq_eq_false_iff_ne,
      ne_eq] at hWord
    unfold Scope.pseudo?
    simp only [beq_iff_eq, hWord, if_false]
    split
    · rename_i hValue
      rw [hKey ((Word.isKey_iff column).2 hValue)]
      rfl
    · rfl
  · unfold Scope.source?
    split
    · rename_i hIs
      rw [hKey hIs]
    · rw [hFind]
      rfl

/- The columns that are bound are held. -/
theorem held_of_bound
    {bound : Bound}
    (hBound : bound ∈ (query.scope
      (caches.tableIn? contents query.source)
      ((caches.tableIn? contents query.source).elim []
        fun row => caches.knownIn contents row
          query.referenced)).bound) :
    ∃ table,
      caches.tableIn? contents query.source = some table ∧
        Word.isReserved bound.column = false ∧
        caches.attributeIn? contents table.id bound.column =
          some bound.known := by
  have hEntry := List.mem_map_of_mem
    (f := fun bound : Bound => (bound.column, bound.known))
    hBound
  rw [Select.scope, Plan.joinAttributes_known] at hEntry
  cases hTable : caches.tableIn? contents query.source with
  | none => simp [hTable] at hEntry
  | some table =>
      rw [hTable] at hEntry
      rcases List.mem_filterMap.1 hEntry with
        ⟨column, -, hColumn⟩
      split at hColumn
      · cases hColumn
      · rename_i hWord
        rcases Option.map_eq_some_iff.1 hColumn with
          ⟨row, hRow, hSame⟩
        cases hSame
        exact ⟨table, rfl, by simpa using hWord, hRow⟩

/- The plan of a query leaves blank what is not known. -/
theorem blanks_planIn
    (caches : Caches)
    (contents : Contents)
    (query : Select) :
    (caches.planIn contents query).Blanks query
      (caches.knows contents query.source) := by
  generalize hKnown :
    ((caches.tableIn? contents query.source).elim []
      fun row => caches.knownIn contents row
        query.referenced) = known
  have hPlan : caches.planIn contents query = Plan.build query
      (caches.tableIn? contents query.source) known := by
    rw [← hKnown, planIn]
  have hBlank {column : String}
      (hUnknown : caches.knows contents query.source column =
        false) :
      (query.scope (caches.tableIn? contents query.source)
          known).expr? column = none ∧
        (query.scope (caches.tableIn? contents query.source)
          known).source? column = none :=
    blank_of_unknown rfl (fun bound hBound =>
      held_of_bound (hKnown ▸ hBound)) hUnknown
  rw [hPlan]
  constructor
  · have hOutputs := Plan.project_map_fst
      (query.scope (caches.tableIn? contents query.source)
        known) .empty query.columns
    rw [← Plan.build_outputs] at hOutputs
    rw [← List.forall₂_map_right_iff (f := Prod.fst)
      (R := fun column output =>
        Word.sameLetters column "count" = false →
          caches.knows contents query.source column = false →
            Expr.render output = "NULL"),
      hOutputs, List.forall₂_map_right_iff,
      List.forall₂_same]
    intro column _ hCount hUnknown
    rw [Scope.output, hCount, if_neg Bool.false_ne_true,
      (hBlank hUnknown).1]
    rfl
  · rcases Plan.build_renders query
      (caches.tableIn? contents query.source) known with
      ⟨searches, -, -, hGroups⟩
    refine hGroups.imp fun group made hGroup =>
      ⟨hGroup.1, hGroup.2.imp fun part predicate hMade => ?_⟩
    intro hUnknown
    rcases hBlank hUnknown with ⟨hExpr, hSource⟩
    cases hMade with
    | search _ hSome => simp [hSource] at hSome
    | unsearchable => rfl
    | comparison =>
        rw [Scope.condition, hExpr]
        rfl

/- The caches hold nothing else than the store. -/
theorem Mirrors.planIn_eq
    (hMirrors : caches.Mirrors contents)
    (hKeyed : contents.Keyed)
    (query : Select) :
    caches.planIn contents query = contents.planOf query := by
  have hTables (name : String) :
      caches.tableIn? contents name =
        contents.tableNamed? name := by
    rw [tableIn?]
    cases hGet : caches.tables.get? name with
    | none => rfl
    | some row =>
        exact (hKeyed.tableNamed?_eq_some_iff.2
          (hMirrors.tables.get?_eq_some hGet)).symm
  have hAttributes (tableId : Int) (name : String) :
      caches.attributeIn? contents tableId name =
        contents.attributeNamed? tableId name := by
    rw [attributeIn?]
    cases hGet : caches.attributes.get? (tableId, name) with
    | none => rfl
    | some row =>
        rcases hMirrors.attributes.get?_eq_some hGet with
          ⟨hRow, hKey⟩
        cases hKey
        exact (hKeyed.attributeNamed?_eq_some_iff.2
          ⟨hRow, rfl, rfl⟩).symm
  unfold planIn Contents.planOf knownIn Contents.knownOf
  simp only [hTables, hAttributes]

end Caches

------------------------------------------------------------
-- Compiling
------------------------------------------------------------

namespace Session

/-
  While nothing fails, an accepted query on a table whose name
  is not reserved is compiled, in every state of a store that
  is not held and whatever is cached.  Tables and columns that
  the dictionaries do not hold make no error, and they are
  written as NULL or as 1 = 0.
-/
theorem accepted_queries_compile
    {shared : Shared}
    (hFree : shared.store.engine.hold = none)
    (policies : Policies)
    {query : Select}
    (hCheck : query.check = .ok ())
    (hSource : Word.isReserved query.source = false) :
    ∃ plan after,
      (compile policies query).advance (calm shared) =
        (.finished (.ok (plan,
          Params.ofScalars query.params.entries)), after) ∧
      (shared.caches.tableIn? shared.contents query.source =
          none →
        Filter.renderTable plan.filter.table = "1 = 0") ∧
      plan.Blanks query
        (shared.caches.knows shared.contents query.source) ∧
      (Reachable shared →
        plan = shared.contents.planOf query) := by
  obtain ⟨kept, hEnds⟩ :=
    @ends_compile shared.store.clock shared.contents policies
      query hCheck hSource shared.caches
  rcases ends_calm hFree hEnds with ⟨after, hRun, -⟩
  refine ⟨_, after, hRun, ?_, Caches.blanks_planIn _ _ _, ?_⟩
  · intro hUnknown
    have hTable : (shared.caches.planIn shared.contents
        query).filter.table = (shared.caches.tableIn?
          shared.contents query.source).map Table.id :=
      rfl
    rw [hTable, hUnknown]
    rfl
  · intro hReachable
    have hRest := hReachable.atRest
    exact hRest.mirrors.planIn_eq hRest.sound.keyed query

/- A query for three columns, two of them in criteria. -/
def mentioning (first second third : String) : Select where
  columns := [first, second, third]
  source := "t"
  groups := [⟨.all,
    [⟨second, "=", "@p"⟩, ⟨third, "matches", "@p"⟩]⟩]
  orders := []
  limit := 0
  params := .empty

/- An attribute is known, and two columns are not. -/
theorem accepted_queries_compile_unknown :
    ∃ plan after,
      (compile default
          (mentioning "a" "b" "relevance")).advance
          (calm (withTexts "a" "c")) =
        (.finished (.ok (plan, .empty)), after) ∧
      plan.Blanks (mentioning "a" "b" "relevance")
        ((withTexts "a" "c").caches.knows
          (withTexts "a" "c").contents "t") ∧
      ((withTexts "a" "c").caches.knows
        (withTexts "a" "c").contents "t") "a" = true ∧
      ((withTexts "a" "c").caches.knows
        (withTexts "a" "c").contents "t") "b" = false := by
  rcases accepted_queries_compile
    (reachable_withTexts "a" "c").atRest.free default
    (show (mentioning "a" "b" "relevance").check = .ok () by
      decide +kernel) (by decide +kernel) with
    ⟨plan, after, hRun, -, hBlanks, -⟩
  exact ⟨plan, after, hRun, hBlanks, by decide +kernel,
    by decide +kernel⟩

/- A query on a table. -/
def showingFrom (source : String) : Select :=
  (Select.on source).column "a"

/- A reserved name passes the check and is refused then. -/
theorem accepted_queries_not_always_compile :
    ¬ ∀ (shared : Shared) (policies : Policies)
        (query : Select),
      Reachable shared →
      query.check = .ok () →
      ∃ found after,
        (compile policies query).advance (calm shared) =
          (.finished (.ok found), after) := by
  intro hAll
  have hRefused : ((compile default
      (showingFrom "value")).advance
        (calm Moment.new.shared)).1 =
      .finished (.error (.validation
        (.dictionaryReserved "Table" "value"))) :=
    Progress.eq_of_error? (by decide +kernel)
  rcases hAll Moment.new.shared default (showingFrom "value")
    .refl (by decide +kernel) with ⟨found, after, hRun⟩
  rw [hRun] at hRefused
  cases hRefused

end Session

end SparseTables

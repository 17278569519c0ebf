import SparseTables.Proofs.Contents.Dropping
import SparseTables.Proofs.Query.Compiling
import SparseTables.Proofs.Session.Reading

/-
  This file shows what queries give of contents without items:
  no rows, or one row if they count.

  Main declarations:
    * `Select.rowsOfNone`
    * `Contents.rows_of_no_items`
    * `Contents.select_wiped_refused`
    * `Contents.respond_wiped`
-/

namespace SparseTables

------------------------------------------------------------
-- Queries
------------------------------------------------------------

/- The rows of a query on no items: only a count is shown. -/
def Select.rowsOfNone
    (query : Select) : List (List (Option Scalar)) :=
  if query.columns.any (Word.sameLetters · "count") then
    [query.columns.map fun column =>
      if Word.sameLetters column "count" then
        some (.ofInt 0)
      else
        none]
  else
    []

namespace Plan

variable {plan : Plan} {contents : Contents}
variable {params : Params}

/- Without items only the early searches can be refused. -/
theorem matching_of_no_items
    (hNone : contents.items.rows = [])
    (searches : Contents.Searches) :
    plan.matching contents params searches =
      (plan.opens contents searches plan.early []).map
        fun _ => [] := by
  unfold matching
  rw [hNone]
  rcases plan.opens contents searches plan.early [] with
    error | _ | _ <;> rfl

theorem results_nil (searches : Contents.Searches) :
    plan.results contents searches [] =
      if plan.counts then [plan.counted []] else [] := by
  unfold results sort
  cases plan.limit <;> simp

/- The rows that are counted are none. -/
theorem counted_nil
    (query : Select)
    (table : Option Table)
    (known : List (String × Attribute)) :
    ((build query table known).counted []).cells.map
        Cell.scalar? =
      query.columns.map fun column =>
        if Word.sameLetters column "count" then
          some (.ofInt 0)
        else
          none := by
  have hCells : ((build query table known).counted []).cells =
      ((build query table known).outputs.map Prod.fst).map
        fun expr =>
          if expr = .countAll then Cell.integer 0
          else .null := by
    simp [counted, firstVisit?]
  rw [hCells, build_outputs, project_map_fst, List.map_map,
    List.map_map]
  refine List.map_congr_left fun column _ => ?_
  simp only [Function.comp_apply, Scope.output_eq_countAll_iff]
  split <;> rfl

theorem rows_of_run
    (hNone : contents.items.rows = [])
    {found : RowSet}
    (hRun : plan.run contents params = .ok found) :
    found.rows =
      if plan.counts then [plan.counted []] else [] := by
  simp only [run, matching_of_no_items hNone] at hRun
  cases hPrepare : plan.prepare with
  | error error =>
      rw [hPrepare] at hRun
      cases hRun
  | ok _ =>
      simp only [hPrepare, bind, Except.bind] at hRun
      split at hRun
      · cases hRun
        exact results_nil _
      cases hOpened : plan.opens contents
          (plan.filter.searches params) plan.early [] with
      | error error =>
          rw [hOpened] at hRun
          cases hRun
      | ok opened =>
          rw [hOpened] at hRun
          cases hRun
          exact results_nil _

/- What is refused without items is refused with them. -/
theorem run_refused
    {other : Contents}
    (hValues : other.values = contents.values)
    (hNone : other.items.rows = [])
    {error : Error}
    (hRun : plan.run other params = .error error) :
    plan.run contents params = .error error := by
  have hOpens (searches : Contents.Searches)
      (joins : List Join)
      (before : List String) :
      plan.opens other searches joins before =
        plan.opens contents searches joins before := by
    induction joins generalizing before with
    | nil => rfl
    | cons next rest ih =>
        simp only [opens, ih, Contents.anyText,
          Contents.searchRows, hValues]
  simp only [run, matching_of_no_items hNone, hOpens] at hRun
  simp only [run, matching]
  cases hPrepare : plan.prepare with
  | error refused =>
      simp only [hPrepare, bind, Except.bind] at hRun ⊢
      exact hRun
  | ok _ =>
      simp only [hPrepare, bind, Except.bind] at hRun ⊢
      split at hRun
      · cases hRun
      rename_i hNever
      rw [if_neg hNever]
      cases hOpened : plan.opens contents
          (plan.filter.searches params) plan.early [] with
      | error refused =>
          rw [hOpened] at hRun
          exact hRun
      | ok opened =>
          rw [hOpened] at hRun
          cases hRun

end Plan

namespace Contents

variable {contents : Contents}

/- A query on no items shows no rows but a count. -/
theorem rows_of_no_items
    (hNone : contents.items.rows = [])
    {query : Select}
    {found : ResultSet}
    (hFound : contents.select query = .ok found) :
    found.rows = query.rowsOfNone := by
  rcases check_of_select hFound with ⟨hCheck, hSource⟩
  unfold select at hFound
  rw [compile_eq hCheck hSource] at hFound
  simp only [bind, Except.bind] at hFound
  cases hRun : (contents.planOf query).run contents
      (Params.ofScalars query.params.entries) with
  | error error =>
      rw [hRun] at hFound
      cases hFound
  | ok rows =>
      rw [hRun] at hFound
      cases hFound
      have hRows := Plan.rows_of_run hNone hRun
      simp only [hRows, planOf, Plan.counts_build_eq,
        Select.rowsOfNone]
      split
      · rw [List.map_singleton, Plan.counted_nil]
      · rfl

/- The dictionaries are the same. -/
theorem compile_wiped (query : Select) :
    (contents.wiped false).compile query =
      contents.compile query := by
  have hKnown (table : Table) (columns : List String) :
      (contents.wiped false).knownAmong table columns =
        contents.knownAmong table columns := by
    induction columns with
    | nil => rfl
    | cons column rest ih =>
        simp only [knownAmong, ih]
        rfl
  unfold compile
  simp only [hKnown]
  rfl

/- A query that is refused without items was so before. -/
theorem select_wiped_refused
    {query : Select}
    {error : Error}
    (hError : (contents.wiped false).select query =
      .error error) :
    contents.select query = .error error := by
  unfold select at hError ⊢
  rw [compile_wiped] at hError
  cases hCompile : contents.compile query with
  | error refused =>
      rw [hCompile] at hError
      exact hError
  | ok compiled =>
      rcases compiled with ⟨plan, params⟩
      simp only [hCompile, bind, Except.bind] at hError ⊢
      cases hRun : plan.run (contents.wiped false) params with
      | error refused =>
          rw [hRun] at hError
          cases hError
          have hValues : (contents.wiped false).values =
              contents.values :=
            rfl
          rw [Plan.run_refused hValues rfl hRun]
      | ok rows =>
          rw [hRun] at hError
          cases hError

end Contents

------------------------------------------------------------
-- Requests
------------------------------------------------------------

/- The same response, but that no item is found. -/
def GetResponse.withoutItems
    (response : GetResponse) : GetResponse :=
  ⟨response.items.map fun _ => none⟩

namespace Contents

variable {contents : Contents}

/- Keys are judged as before, and none has an item. -/
theorem lookUp_wiped (tableId : Int) (key : Scalar) :
    (contents.wiped false).lookUp tableId key =
      (contents.lookUp tableId key).map fun _ => none := by
  have hUnder :
      (contents.wiped false).itemUnder? tableId key = none := by
    unfold itemUnder?
    cases (contents.wiped false).valueOf? key <;> rfl
  unfold lookUp
  rw [hUnder]
  cases Check.storable key <;> rfl

theorem respondEach_wiped
    (tableId : Int)
    (keys : List Scalar) :
    (contents.wiped false).respondEach tableId keys =
      (contents.respondEach tableId keys).map
        (List.map fun _ => none) := by
  induction keys with
  | nil => rfl
  | cons key rest ih =>
      have hCons (contents : Contents) :
          contents.respondEach tableId (key :: rest) =
            (do
              let first ← (contents.lookUp tableId key).map
                (Option.map fun item =>
                  contents.metadata item.id)
              let more ← contents.respondEach tableId rest
              pure (first :: more)) :=
        List.mapM_cons
      rw [hCons, hCons, ih, lookUp_wiped]
      rcases contents.lookUp tableId key with error | found
      · rfl
      · rcases contents.respondEach tableId rest with
          error | more <;> rfl

/- A request is refused as before, or no item is found. -/
theorem respond_wiped (request : GetRequest) :
    (contents.wiped false).respond request =
      (contents.respond request).map
        GetResponse.withoutItems := by
  unfold respond
  rw [show (contents.wiped false).tableNamed? request.table =
    contents.tableNamed? request.table from rfl]
  rcases Check.dictionary "Table" request.table with
    error | _
  · rfl
  rcases contents.tableNamed? request.table with _ | table
  · rfl
  simp only [bind, Except.bind, respondEach_wiped]
  rcases contents.respondEach table.id request.keys with
    error | found <;> rfl

end Contents

namespace GetResponse

@[simp] theorem withoutItems_normalized
    (response : GetResponse) :
    response.normalized.withoutItems =
      response.withoutItems := by
  simp only [withoutItems, normalized, List.map_map]
  rfl

/- Where no item is found there is nothing to normalize. -/
theorem eq_of_normalized
    {left right : GetResponse}
    (hSame : left.normalized = right.withoutItems) :
    left = right.withoutItems := by
  have hNone : ∀ found ∈ left.items, found = none := by
    intro found hFound
    have hMem : found.map NameMap.normalized ∈
        left.normalized.items :=
      List.mem_map_of_mem hFound
    rw [hSame] at hMem
    rcases List.mem_map.1 hMem with ⟨_, -, hOther⟩
    exact Option.map_eq_none_iff.1 hOther.symm
  rw [← hSame]
  rcases left with ⟨items⟩
  refine congrArg GetResponse.mk ?_
  refine (List.map_id items).symm.trans
    (List.map_congr_left fun found hFound => ?_)
  rw [hNone found hFound]
  rfl

end GetResponse

end SparseTables

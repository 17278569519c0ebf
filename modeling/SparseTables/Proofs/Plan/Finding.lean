import SparseTables.Proofs.Plan.Passing

/-
  This file shows what running any plan gives: the rows of
  the items that it finds, or an error that has a reason.

  Main declarations:
    * `Plan.opening`
    * `Plan.Finds`
    * `Plan.Wired.run_cases`
-/

namespace SparseTables

namespace Plan

variable {plan : Plan} {contents : Contents}
variable {params : Params} {searches : Contents.Searches}
variable {item : ItemRow}

------------------------------------------------------------
-- Before the items
------------------------------------------------------------

/-
  What is found out before the items, from the texts that
  early searches are in and what these searches complete.
-/
inductive Opening
    (contents : Contents)
    (searches : Contents.Searches)
    (steps : List Join)
    (due : List (List Predicate)) :
    Except Error Bool → Prop where
  | opened
      (hDue : due = []) :
      Opening contents searches steps due (.ok true)
  | shut
      {join : Join}
      (hJoin : join ∈ steps)
      (hAny : contents.anyText searches join.label =
        .ok false) :
      Opening contents searches steps due (.ok false)
  | unread
      {join : Join}
      {error : Error}
      (hJoin : join ∈ steps)
      (hAny : contents.anyText searches join.label =
        .error error) :
      Opening contents searches steps due (.error error)
  | misplaced
      {condition : List Predicate}
      (hDue : condition ∈ due) :
      Opening contents searches steps due
        (.error (.store .misplacedSearch))

/- More may be searched, and the same may be due. -/
theorem Opening.congr
    {steps more : List Join}
    {due later : List (List Predicate)}
    {result : Except Error Bool}
    (hOpening : Opening contents searches steps due result)
    (hSteps : steps ⊆ more)
    (hDue : ∀ condition,
      condition ∈ due ↔ condition ∈ later) :
    Opening contents searches more later result := by
  cases hOpening with
  | opened hNone =>
      refine .opened (List.eq_nil_iff_forall_not_mem.2
        fun condition hMem => ?_)
      rw [← hDue, hNone] at hMem
      cases hMem
  | shut hJoin hAny => exact .shut (hSteps hJoin) hAny
  | unread hJoin hAny => exact .unread (hSteps hJoin) hAny
  | misplaced hMem => exact .misplaced ((hDue _).1 hMem)

theorem opening
    (steps : List Join)
    (before : List String) :
    Opening contents searches steps
      (plan.filter.due before
        ((steps.map Join.label).reverse ++ before))
      (plan.opens contents searches steps before) := by
  induction steps generalizing before with
  | nil => exact .opened (Filter.due_self before)
  | cons next rest ih =>
      have hEnd : ((next :: rest).map Join.label).reverse ++
          before = (rest.map Join.label).reverse ++
            next.label :: before := by
        simp
      have hDue (condition : List Predicate) :
          condition ∈ plan.filter.due before
              (next.label :: before) ++
            plan.filter.due (next.label :: before)
              ((rest.map Join.label).reverse ++
                next.label :: before) ↔
          condition ∈ plan.filter.due before
            ((rest.map Join.label).reverse ++
              next.label :: before) :=
        Filter.mem_due_append_iff
          (List.subset_cons_self _ _)
          (List.subset_append_right _ _)
      rw [hEnd]
      cases hAny : contents.anyText searches next.label with
      | error error =>
          have hMade : plan.opens contents searches
              (next :: rest) before = .error error := by
            rw [opens, hAny]
            rfl
          rw [hMade]
          exact .unread List.mem_cons_self hAny
      | ok found =>
          cases found with
          | false =>
              have hMade : plan.opens contents searches
                  (next :: rest) before = .ok false := by
                rw [opens, hAny]
                rfl
              rw [hMade]
              exact .shut List.mem_cons_self hAny
          | true =>
              by_cases hNow : plan.filter.due before
                  (next.label :: before) = []
              · have hMade : plan.opens contents searches
                    (next :: rest) before =
                    plan.opens contents searches rest
                      (next.label :: before) := by
                  rw [opens, hAny]
                  simp [bind, Except.bind, hNow]
                simp only [hNow, List.nil_append] at hDue
                rw [hMade]
                exact (ih (next.label :: before)).congr
                  (List.subset_cons_self _ _) hDue
              · have hMade : plan.opens contents searches
                    (next :: rest) before =
                    .error (.store .misplacedSearch) := by
                  rw [opens, hAny]
                  simp [bind, Except.bind, hNow, throw,
                    throwThe, MonadExceptOf.throw]
                rcases List.exists_mem_of_ne_nil _ hNow with
                  ⟨condition, hMem⟩
                rw [hMade]
                exact .misplaced ((hDue condition).1
                  (List.mem_append_left _ hMem))

theorem mem_searchRows
    {id : Int}
    {found : SearchRow}
    (hFound : contents.searchRow? id = some found) :
    found ∈ contents.searchRows := by
  rcases Option.bind_eq_some_iff.1 hFound with
    ⟨value, hValue, hRow⟩
  exact List.mem_filterMap.2
    ⟨value, List.mem_of_find?_eq_some hValue, hRow⟩

/- Where no text fits, no item does. -/
theorem met_of_anyText
    {label source : String}
    (hAny : contents.anyText searches label = .ok false) :
    plan.met contents searches item (.search label source) =
      false := by
  cases hText : ((plan.whole contents item).valueId?
      source).bind contents.searchRow? with
  | none => simp only [met, hText, Option.any_none]
  | some found =>
      rcases Option.bind_eq_some_iff.1 hText with
        ⟨id, -, hFound⟩
      have hMem := mem_searchRows hFound
      unfold Contents.anyText at hAny
      cases hSearch : searches.lookup label with
      | none =>
          rw [hSearch] at hAny
          have hNone : contents.searchRows.any
              (fun _ => true) = false :=
            Except.ok.inj hAny
          rw [List.any_eq_false] at hNone
          exact absurd rfl (hNone found hMem)
      | some read =>
          cases read with
          | error error =>
              simp only [met, hText, hSearch, Option.any_some]
          | ok search =>
              rw [hSearch] at hAny
              have hNone : contents.searchRows.any
                  (fun row => search.holds row.terms) =
                    false :=
                Except.ok.inj hAny
              rw [List.any_eq_false] at hNone
              simpa only [met, hText, hSearch,
                Option.any_some, Bool.not_eq_true] using
                hNone found hMem

theorem lookup_of_anyText
    {label : String}
    {error : Error}
    (hAny : contents.anyText searches label =
      .error error) :
    searches.lookup label = some (.error error) := by
  unfold Contents.anyText at hAny
  cases hSearch : searches.lookup label with
  | none =>
      rw [hSearch] at hAny
      cases hAny
  | some read =>
      cases read with
      | ok search =>
          rw [hSearch] at hAny
          cases hAny
      | error other =>
          rw [hSearch] at hAny
          cases hAny
          rfl

------------------------------------------------------------
-- Running
------------------------------------------------------------

/- A condition of things unknown holds of no item. -/
theorem tries_of_never
    {condition : List Predicate}
    (hNever : ∀ part ∈ condition, part = .never) :
    plan.tries contents params item condition =
      .ok false := by
  unfold tries
  induction condition with
  | nil => rfl
  | cons part rest ih =>
      rw [List.forall_mem_cons] at hNever
      rw [hNever.1]
      exact ih hNever.2

/- Rows that items get, each by a verdict on the item. -/
def Finds
    (plan : Plan)
    (contents : Contents)
    (params : Params)
    (rows : List JoinedRow) : Prop :=
  ∃ made : ItemRow → Option JoinedRow,
    rows = contents.items.rows.filterMap made ∧
    ∀ item ∈ contents.items.rows,
      (plan.filter.table ≠ some item.tableId →
        made item = none) ∧
      (plan.filter.table = some item.tableId →
        plan.Verdict contents params
          (plan.filter.searches params) item plan.aliases
          plan.joins plan.filter.conditions
          (.ok (made item)))

/-
  Why a plan that is not refused has no result: a search that
  cannot be read, searches with nothing beside them, or an
  item on which a condition cannot be tried.
-/
inductive Stops
    (plan : Plan)
    (contents : Contents)
    (params : Params) : Error → Prop where
  | unread
      {error : Error}
      {join : Join}
      (hJoin : join ∈ plan.joins)
      (hSearch : (plan.filter.searches params).lookup
        join.label = some (.error error)) :
      Stops plan contents params error
  | misplaced
      {condition : List Predicate}
      (hMem : condition ∈ plan.filter.conditions)
      (hParts : ∀ part ∈ condition, part.expr? = none)
      (hSearch : ∃ part ∈ condition, part.isSearch = true) :
      Stops plan contents params (.store .misplacedSearch)
  | refused
      {error : Error}
      {item : ItemRow}
      (hItem : item ∈ contents.items.rows)
      (hTable : plan.filter.table = some item.tableId)
      {condition : List Predicate}
      (hMem : condition ∈ plan.filter.conditions)
      (hRefused : plan.tries contents params item condition =
        .error error) :
      Stops plan contents params error

/- What early searches complete are searches. -/
theorem Wired.expr?_of_due_early
    (hWired : plan.Wired)
    {condition : List Predicate}
    (hDue : condition ∈ plan.filter.due []
      (plan.early.map Join.label)) :
    condition ∈ plan.filter.conditions ∧
      (∀ part ∈ condition, part.expr? = none) ∧
      ∃ part ∈ condition, part.isSearch = true := by
  rcases Filter.mem_due_iff.1 hDue with ⟨hMem, hNeeds, hNot⟩
  have hParts : ∀ part ∈ condition, part.expr? = none := by
    intro part hPart
    cases part with
    | never => rfl
    | «matches» label param => rfl
    | compare left op param =>
        rcases Filter.exists_group hMem hPart with
          ⟨group, hGroup, hIn⟩
        have hLeft :=
          hWired.comparisons group hGroup _ hIn left rfl
        have hSource : left.source ∈
            plan.early.map Join.label :=
          hNeeds (List.mem_filterMap.2 ⟨_, hPart, rfl⟩)
        rcases List.mem_map.1 hSource with
          ⟨join, hEarly, hSame⟩
        rcases mem_of_mem_early hEarly with ⟨hJoin, hKind⟩
        have hSearch :=
          hWired.not_hasValue_of_search hJoin hKind
        have hItem := (List.nodup_cons.1 hWired.aliases).1
        cases left with
        | value label column =>
            exact absurd (hSame ▸ hLeft) hSearch
        | _ =>
            exact absurd
              (List.mem_map.2 ⟨join, hJoin, hSame⟩) hItem
  refine ⟨hMem, hParts, ?_⟩
  by_contra hNone
  refine hNot fun source hSource => ?_
  rcases List.mem_filterMap.1 hSource with
    ⟨part, hPart, hIs⟩
  cases part with
  | never => cases hIs
  | compare left op param => cases hParts _ hPart
  | «matches» label param =>
      exact absurd ⟨_, hPart, rfl⟩ hNone

/- If no item can be found, no rows are right. -/
theorem finds_nil
    (hNone : ∀ item ∈ contents.items.rows,
      plan.filter.table = some item.tableId →
        plan.Verdict contents params
          (plan.filter.searches params) item plan.aliases
          plan.joins plan.filter.conditions (.ok none)) :
    plan.Finds contents params [] :=
  ⟨fun _ => none, by simp, fun item hItem =>
    ⟨fun _ => rfl, hNone item hItem⟩⟩

/- A filter that cannot be met finds no item. -/
theorem finds_of_isNever
    (hNever : plan.filter.isNever = true) :
    plan.Finds contents params [] := by
  refine finds_nil fun item _ hTable => ?_
  rcases (Filter.isNever_iff (by simp [hTable])).1 hNever
    with ⟨condition, hMem, hParts⟩
  exact .fails hMem (tries_of_never hParts)

/- Behind the early searches every item has its verdict. -/
theorem Wired.mapM_joinOf?
    (hWired : plan.Wired)
    (params : Params)
    (hNever : ¬ plan.filter.isNever = true)
    (hKeys : ∀ item ∈ contents.items.rows,
      (contents.value? item.valueId).isSome)
    (hEarly : plan.filter.due []
      (plan.early.map Join.label) = []) :
    (∃ found, contents.items.rows.mapM
        (plan.joinOf? contents params
          (plan.filter.searches params)) = .ok found ∧
      plan.Finds contents params (found.filterMap id)) ∨
    ∃ error, contents.items.rows.mapM
        (plan.joinOf? contents params
          (plan.filter.searches params)) = .error error ∧
      plan.Stops contents params error := by
  have hVerdict : ∀ item ∈ contents.items.rows,
      plan.filter.table = some item.tableId →
        plan.Verdict contents params
          (plan.filter.searches params) item plan.aliases
          plan.joins plan.filter.conditions
          (plan.joinOf? contents params
            (plan.filter.searches params) item) :=
    fun item hItem hTable => hWired.verdict_joinOf?
      (hKeys item hItem) hTable hNever hEarly
  have hOther (item : ItemRow)
      (hTable : plan.filter.table ≠ some item.tableId) :
      plan.joinOf? contents params
        (plan.filter.searches params) item = .ok none :=
    if_pos hTable
  cases hRun : contents.items.rows.mapM
      (plan.joinOf? contents params
        (plan.filter.searches params)) with
  | ok found =>
      have hMade : ∀ item ∈ contents.items.rows,
          plan.joinOf? contents params
            (plan.filter.searches params) item =
              .ok (plan.joinOf? contents params
                (plan.filter.searches params)
                  item).toOption.join := by
        intro item hItem
        rcases Except.exists_of_mapM_eq_ok hRun item hItem with
          ⟨made, hMade⟩
        rw [hMade]
        rfl
      have hFound := hRun.symm.trans (Except.mapM_eq hMade)
      refine .inl ⟨found, rfl, fun item =>
        (plan.joinOf? contents params
          (plan.filter.searches params) item).toOption.join,
        ?_, fun item hItem =>
          ⟨fun hTable => ?_, fun hTable => ?_⟩⟩
      · rw [Except.ok.inj hFound, List.filterMap_map]
        rfl
      · simp only [hOther item hTable]
        rfl
      · have hThis := hVerdict item hItem hTable
        rwa [hMade item hItem] at hThis
  | error error =>
      refine .inr ⟨error, rfl, ?_⟩
      rcases Except.exists_of_mapM_eq_error hRun with
        ⟨item, hItem, hError⟩
      by_cases hTable : plan.filter.table = some item.tableId
      · have hThis := hVerdict item hItem hTable
        rw [hError] at hThis
        cases hThis with
        | unread hJoin hSearch => exact .unread hJoin hSearch
        | refused hDue hRefused =>
            exact .refused hItem hTable hDue hRefused
      · rw [hOther item hTable] at hError
        cases hError

/- A plan that is not refused gives what it finds. -/
theorem Wired.run_cases
    (hWired : plan.Wired)
    (hPrepare : plan.prepare = .ok ())
    (hKeys : ∀ item ∈ contents.items.rows,
      (contents.value? item.valueId).isSome) :
    (∃ rows, plan.run contents params =
        .ok ⟨plan.columns, plan.results contents
          (plan.filter.searches params) rows⟩ ∧
      plan.Finds contents params rows) ∨
    ∃ error, plan.run contents params = .error error ∧
      ¬ plan.filter.isNever = true ∧
      plan.Stops contents params error := by
  unfold run
  simp only [hPrepare, bind, Except.bind]
  by_cases hNever : plan.filter.isNever = true
  · rw [if_pos hNever]
    exact .inl ⟨[], rfl, finds_of_isNever hNever⟩
  rw [if_neg hNever]
  unfold matching
  have hOpening : Opening contents
      (plan.filter.searches params) plan.early _
      (plan.opens contents (plan.filter.searches params)
        plan.early []) :=
    opening plan.early []
  have hDue : plan.filter.due []
      ((plan.early.map Join.label).reverse ++ []) =
      plan.filter.due [] (plan.early.map Join.label) :=
    Filter.due_congr (by simp) (by simp)
  rw [hDue] at hOpening
  generalize plan.opens contents
    (plan.filter.searches params) plan.early [] = result
    at hOpening
  cases hOpening with
  | opened hEarly =>
      rcases hWired.mapM_joinOf? params hNever hKeys
        hEarly with
        ⟨found, hFound, hFinds⟩ | ⟨error, hError, hStops⟩
      · refine .inl ⟨_, ?_, hFinds⟩
        simp [bind, Except.bind, hFound, pure, Except.pure]
      · refine .inr ⟨error, ?_, hNever, hStops⟩
        simp [bind, Except.bind, hError]
  | shut hEarly hAny =>
      rename_i join
      refine .inl ⟨[], rfl, finds_nil fun item _ _ => ?_⟩
      rcases mem_of_mem_early hEarly with ⟨hJoin, hKind⟩
      cases join with
      | search label source =>
          exact .unmet hJoin (met_of_anyText hAny)
      | _ => cases hKind
  | unread hEarly hAny =>
      exact .inr ⟨_, rfl, hNever, .unread
        (mem_of_mem_early hEarly).1 (lookup_of_anyText hAny)⟩
  | misplaced hDue =>
      rcases hWired.expr?_of_due_early hDue with
        ⟨hMem, hParts, hSearch⟩
      exact .inr
        ⟨_, rfl, hNever, .misplaced hMem hParts hSearch⟩

end Plan

end SparseTables

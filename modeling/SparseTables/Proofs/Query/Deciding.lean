import SparseTables.Proofs.Plan.Finding
import SparseTables.Proofs.Query.Satisfying
import SparseTables.Proofs.Query.Wiring

/-
  This file shows that a plan judges an item, criterion by
  criterion and as a whole, as its record deserves.

  A comparison is true of the item if it is true of the
  record.  A search is met as it says where every row must
  satisfy it, and by any text elsewhere.  The item is found if
  and only if the record satisfies the query and has a text
  wherever one is searched.

  Main declarations:
    * `Contents.Sound.searchRow_eq`
    * `Contents.Sound.compares_of_renders`
    * `Contents.Sound.met_of_strict`
    * `Contents.Sound.met_of_loose`
    * `Contents.selects`
    * `Contents.Sound.isSome_of_verdict`
-/

namespace SparseTables

namespace Contents

variable {contents : Contents} {table : Table}
variable {query : Select} {column : String}
variable {item : ItemRow} {row : JoinedRow}

theorem mem_referenced_of_mem_knownOf :
    ∀ entry ∈ contents.knownOf table query.referenced,
      entry.1 ∈ query.referenced :=
  fun _ hEntry => (mem_knownOf_iff.1 hEntry).1

/- The parts of the plan of a query refer to what is there. -/
theorem wired_planOf : (contents.planOf query).Wired := by
  unfold planOf
  cases contents.tableNamed? query.source with
  | none => exact Plan.wired_build (List.forall_mem_nil _)
  | some table =>
      exact Plan.wired_build mem_referenced_of_mem_knownOf

------------------------------------------------------------
-- Texts and comparisons
------------------------------------------------------------

namespace Sound

/- What a search is in is the text of its column. -/
theorem searchRow_eq
    (hSound : contents.Sound)
    (hTable : contents.tableNamed? query.source = some table)
    (hItem : item ∈ contents.items.rows)
    (hId : item.tableId = table.id)
    (hRow : (contents.planOf query).Shows contents item row)
    {source : String}
    (hSource : (contents.scopeOf query table).source? column =
      some source) :
    ((row.valueId? source).bind contents.searchRow?).map
        SearchRow.terms =
      ((contents.recordOf item).cell column).text?.map
        Terms.ofText := by
  have hText (value : Value) :
      (SearchRow.ofValue? value).map SearchRow.terms =
        value.content.cell.text?.map Terms.ofText := by
    unfold SearchRow.ofValue?
    cases value.content <;> rfl
  unfold Scope.source? at hSource
  split at hSource
  · rename_i hKey
    have hKnown := (hSound.tableNamed?_eq_some_iff.1 hTable).1
    rcases hSound.exists_key hItem hKnown hId with
      ⟨key, hFind, -⟩
    have hItems : source = itemAlias := by
      split at hSource
      · split at hSource
        · cases hSource
        · exact (Option.some.inj hSource).symm
      · cases hSource
    have hCell : (contents.recordOf item).cell column =
        key.content.cell := by
      simp [Record.cell, (Word.isKey_iff column).1 hKey,
        recordOf, hFind, Cell.ofOption]
    rw [hCell, ← hText, JoinedRow.valueId?, hItems, hRow.same]
    simp [searchRow?, hFind]
  · rcases Option.map_eq_some_iff.1 hSource with
      ⟨bound, hFind, rfl⟩
    rcases Scope.mem_of_find? hFind with ⟨hBound, rfl⟩
    rcases attributeNamed?_of_bound hBound with
      ⟨hWord, hAttr⟩
    have hJoin := mem_joins_planOf hTable
      (.inr (List.mem_map_of_mem hBound))
    have hOther : bound.label ≠ itemAlias := by
      intro hSame
      exact wired_planOf.not_hasValue_itemAlias
        ⟨bound.join, hJoin, rfl, hSame⟩
    have hLookup : row.values.lookup bound.label =
        some (contents.slotValue? item.id bound.known.id) :=
      hRow.values bound.join hJoin rfl
    rw [Record.cell_of_not_reserved hWord]
    simp only [JoinedRow.valueId?, beq_false_of_ne hOther,
      hLookup, Option.join_some, Bool.false_eq_true, if_false,
      recordOf, hSound.get?_metadata hItem, hId,
      valueAt_of_attribute hAttr]
    cases hValue :
        contents.slotValue? item.id bound.known.id with
    | none => rfl
    | some value =>
        rcases Option.bind_eq_some_iff.1 hValue with
          ⟨slot, -, hFound⟩
        have hSame := hSound.value?_eq_some_iff.2
          ⟨(hSound.value?_eq_some_iff.1 hFound).1, rfl⟩
        simp only [Option.map_some, Option.bind_some,
          searchRow?, hSame]
        exact hText value

/- A comparison of a plan is the criterion that it is for. -/
theorem compares_of_renders
    (hSound : contents.Sound)
    (hTable : contents.tableNamed? query.source = some table)
    (hItem : item ∈ contents.items.rows)
    (hId : item.tableId = table.id)
    (hRow : (contents.planOf query).Shows contents item row)
    {part : Criterion}
    (hPart : part ∈ query.criteria)
    {joins : List Join}
    {made : Predicate}
    (hRenders : (contents.scopeOf query table).Renders joins
      part made)
    (hKind : made.isSearch = false) :
    Predicate.compares
        (Params.ofScalars query.params.entries) row made =
      contents.meets query table (contents.recordOf item)
        part := by
  have hColumn := Plan.mem_referenced hPart
  cases hRenders with
  | search => cases hKind
  | unsearchable hSearch hSource =>
      have hNot :
          contents.isSearchable table part.name = false := by
        rw [← isSome_source? hColumn, hSource]
        rfl
      have hIs : part.isSearch = true := hSearch
      rw [meets, if_pos hIs, finds, hNot]
      rfl
  | comparison hSearch =>
      have hIs : part.isSearch = false := hSearch
      rw [meets, hIs, if_neg Bool.false_ne_true, compares]
      unfold Scope.condition
      cases hExpr :
          (contents.scopeOf query table).expr? part.name with
      | none =>
          rw [hSound.cell_eq_null hItem hId hColumn hExpr]
          cases Operator.ofText? part.op <;> rfl
      | some left =>
          simp only [Predicate.compares,
            hSound.eval_expr hTable hItem hId hRow hColumn
              hExpr,
            Params.bound_eq_argument,
            Operator.holds_eq_holdsIn,
            isTextual_of_expr? hExpr]
          cases Operator.ofText? part.op <;> rfl

/- A predicate that was tried says if its criterion is met. -/
theorem meets_of_tries
    (hSound : contents.Sound)
    (hTable : contents.tableNamed? query.source = some table)
    (hItem : item ∈ contents.items.rows)
    (hId : item.tableId = table.id)
    {part : Criterion}
    (hPart : part ∈ query.criteria)
    {made : Predicate}
    (hRenders : (contents.scopeOf query table).Renders
      (contents.planOf query).joins part made)
    (hKind : made.isSearch = false)
    {holds : Bool}
    (hTries : (contents.planOf query).tries contents
      (Params.ofScalars query.params.entries) item [made] =
        .ok holds) :
    contents.meets query table (contents.recordOf item) part =
      holds := by
  rw [← hSound.compares_of_renders hTable hItem hId
    (wired_planOf.shows (Plan.carries_whole _)) hPart hRenders
    hKind]
  exact Predicate.compares_of_anyHolds hKind hTries

------------------------------------------------------------
-- Searches
------------------------------------------------------------

/- A search is met by a text only. -/
theorem isSome_text_of_met
    (hSound : contents.Sound)
    (hTable : contents.tableNamed? query.source = some table)
    (hItem : item ∈ contents.items.rows)
    (hId : item.tableId = table.id)
    {label source : String}
    (hSource : (contents.scopeOf query table).source? column =
      some source)
    {searches : Searches}
    (hMet : (contents.planOf query).met contents searches item
      (.search label source) = true) :
    ((contents.recordOf item).cell
      column).text?.isSome = true := by
  have hText := hSound.searchRow_eq hTable hItem hId
    (wired_planOf.shows (Plan.carries_whole _)) hSource
  rw [Plan.met_search, hText] at hMet
  cases hCell : ((contents.recordOf item).cell
      column).text? with
  | none =>
      rw [hCell] at hMet
      cases hMet
  | some text => rfl

/- A search that every row must satisfy is met as it says. -/
theorem met_of_strict
    (hSound : contents.Sound)
    (hTable : contents.tableNamed? query.source = some table)
    (hItem : item ∈ contents.items.rows)
    (hId : item.tableId = table.id)
    {group : Combine × List Predicate}
    (hGroup : group ∈ (contents.planOf query).filter.groups)
    (hStrict : Filter.isStrict group = true)
    {part : Criterion}
    (hPart : part ∈ query.criteria)
    (hSearch : part.isSearch = true)
    {label source : String}
    (hMade : .matches label part.param ∈ group.2)
    (hSource : (contents.scopeOf query table).source?
      part.name = some source) :
    (contents.planOf query).met contents
        ((contents.planOf query).filter.searches
          (Params.ofScalars query.params.entries)) item
        (.search label source) =
      contents.meets query table (contents.recordOf item)
        part := by
  have hText := hSound.searchRow_eq hTable hItem hId
    (wired_planOf.shows (Plan.carries_whole _)) hSource
  have hLookup := Plan.lookup_of_strict
    mem_referenced_of_mem_knownOf
    (planOf_eq hTable ▸ hGroup) hStrict hMade
    (Params.ofScalars query.params.entries)
  have hCan : contents.isSearchable table part.name = true := by
    rw [← isSome_source? (Plan.mem_referenced hPart), hSource]
    rfl
  rw [← planOf_eq hTable, Predicate.search?,
    Params.bound_eq_argument] at hLookup
  rw [meets, if_pos hSearch, finds, hCan, Bool.true_and,
    Plan.met_search, hText, hLookup, Option.any_map]
  refine congrArg (Option.any · _) (funext fun text => ?_)
  unfold Select.search?
  simp only [Option.map_some]
  cases Search.read?
    ((query.argument part.param).storedText?.getD "") <;> rfl

/- Other searches are met by any text. -/
theorem met_of_loose
    (hSound : contents.Sound)
    (hTable : contents.tableNamed? query.source = some table)
    (hItem : item ∈ contents.items.rows)
    (hId : item.tableId = table.id)
    {group : Combine × List Predicate}
    (hGroup : group ∈ (contents.planOf query).filter.groups)
    (hLoose : Filter.isStrict group = false)
    {part : Criterion}
    {label source : String}
    (hMade : .matches label part.param ∈ group.2)
    (hSource : (contents.scopeOf query table).source?
      part.name = some source) :
    (contents.planOf query).met contents
        ((contents.planOf query).filter.searches
          (Params.ofScalars query.params.entries)) item
        (.search label source) =
      ((contents.recordOf item).cell
        part.name).text?.isSome := by
  have hText := hSound.searchRow_eq hTable hItem hId
    (wired_planOf.shows (Plan.carries_whole _)) hSource
  have hLookup := Plan.lookup_of_loose
    mem_referenced_of_mem_knownOf
    (planOf_eq hTable ▸ hGroup) hLoose hMade
    (Params.ofScalars query.params.entries)
  rw [← planOf_eq hTable] at hLookup
  rw [Plan.met_search, hText, hLookup, Option.any_map]
  cases ((contents.recordOf item).cell part.name).text? <;> rfl

end Sound

end Contents

namespace Contents

variable {contents : Contents} {table : Table}
variable {query : Select} {item : ItemRow}
variable {scope : Scope} {joins : List Join}
variable {source : Group}
variable {group : Combine × List Predicate}

------------------------------------------------------------
-- Groups
------------------------------------------------------------

/- All criteria of a strict group must be met. -/
theorem meetsGroup_of_strict
    (hRenders : Plan.GroupRenders scope joins source group)
    (hSome : source.criteria ≠ [])
    (hStrict : Filter.isStrict group = true)
    (record : Record) :
    contents.meetsGroup query table record source =
      source.criteria.all
        (contents.meets query table record) := by
  rcases hRenders with ⟨hCombine, hParts⟩
  unfold meetsGroup
  cases hKind : source.combine with
  | all => rfl
  | any =>
      have hOne : source.criteria.length = 1 := by
        have hPos := List.length_pos_of_ne_nil hSome
        rw [Filter.isStrict, hCombine, hKind,
          ← hParts.length_eq] at hStrict
        have hShort : source.criteria.length ≤ 1 := by
          simpa using hStrict
        omega
      rcases List.length_eq_one_iff.1 hOne with ⟨part, hPart⟩
      simp [hPart]

/- Of other groups any criterion must be met. -/
theorem meetsGroup_of_loose
    (hRenders : Plan.GroupRenders scope joins source group)
    (hLoose : Filter.isStrict group = false)
    (record : Record) :
    contents.meetsGroup query table record source =
      source.criteria.any
        (contents.meets query table record) := by
  unfold meetsGroup
  cases hKind : source.combine with
  | all =>
      rw [Filter.isStrict, hRenders.1, hKind] at hLoose
      cases hLoose
  | any => rfl

/- A group with criteria has its group in the plan. -/
theorem exists_group_of_source
    (hTable : contents.tableNamed? query.source = some table)
    (hSource : source ∈ query.groups)
    (hSome : source.criteria ≠ []) :
    ∃ group ∈ (contents.planOf query).filter.groups,
      Plan.GroupRenders (contents.scopeOf query table)
        (contents.planOf query).joins source group := by
  rw [planOf_eq hTable]
  exact exists_right_of_forall₂ Plan.groups_build_renders
    (List.mem_filter.2 ⟨hSource, by simpa using hSome⟩)

/- A group of the plan is that of a group with criteria. -/
theorem exists_source_of_group
    (hTable : contents.tableNamed? query.source = some table)
    (hGroup : group ∈ (contents.planOf query).filter.groups) :
    ∃ source ∈ query.groups, source.criteria ≠ [] ∧
      Plan.GroupRenders (contents.scopeOf query table)
        (contents.planOf query).joins source group := by
  rw [planOf_eq hTable] at hGroup ⊢
  rcases exists_left_of_forall₂ Plan.groups_build_renders
    hGroup with ⟨source, hSource, hRenders⟩
  rcases List.mem_filter.1 hSource with ⟨hSource, hSome⟩
  exact ⟨source, hSource, by simpa using hSome, hRenders⟩

theorem mem_criteria
    {part : Criterion}
    (hSource : source ∈ query.groups)
    (hPart : part ∈ source.criteria) :
    part ∈ query.criteria :=
  List.mem_flatMap.2 ⟨source, hSource, hPart⟩

------------------------------------------------------------
-- Verdicts
------------------------------------------------------------

/-
  Does a query select a record?  The record has to satisfy
  it and to have a text wherever one is searched.
-/
def selects
    (contents : Contents)
    (query : Select)
    (record : Record) : Bool :=
  (contents.tableNamed? query.source).any fun table =>
    contents.satisfies query table record &&
      contents.hasTexts query table record

theorem not_satisfies
    {record : Record}
    (hSource : source ∈ query.groups)
    (hSome : source.criteria ≠ [])
    (hNot : contents.meetsGroup query table record source =
      false) :
    contents.satisfies query table record = false := by
  unfold satisfies
  rw [List.all_eq_false]
  exact ⟨source, hSource, by simp [hSome, hNot]⟩

namespace Sound

/- Where all is met and holds, the groups are met. -/
theorem satisfies_of_met
    (hSound : contents.Sound)
    (hTable : contents.tableNamed? query.source = some table)
    (hItem : item ∈ contents.items.rows)
    (hId : item.tableId = table.id)
    (hMet : ∀ join ∈ (contents.planOf query).joins,
      (contents.planOf query).met contents
        ((contents.planOf query).filter.searches
          (Params.ofScalars query.params.entries)) item
        join = true)
    (hHolds : ∀ condition ∈
        (contents.planOf query).filter.conditions,
      (contents.planOf query).tries contents
        (Params.ofScalars query.params.entries) item
        condition = .ok true) :
    contents.satisfies query table
      (contents.recordOf item) = true := by
  unfold satisfies
  rw [List.all_eq_true]
  intro source hSource
  by_cases hSome : source.criteria = []
  · simp [hSome]
  rw [Bool.or_eq_true]
  refine .inr ?_
  rcases exists_group_of_source hTable hSource hSome with
    ⟨group, hGroup, hRenders⟩
  by_cases hStrict : Filter.isStrict group = true
  · rw [meetsGroup_of_strict hRenders hSome hStrict,
      List.all_eq_true]
    intro part hPart
    have hIn := mem_criteria hSource hPart
    rcases exists_right_of_forall₂ hRenders.2 hPart with
      ⟨made, hMade, hPartRenders⟩
    cases hKind : made.isSearch with
    | false =>
        exact hSound.meets_of_tries hTable hItem hId hIn
          hPartRenders hKind
          (hHolds [made] (Filter.mem_conditions_iff.2
            ⟨group, hGroup, .inl
              ⟨hStrict, made, hMade, hKind, rfl⟩⟩))
    | true =>
        rcases hPartRenders.of_isSearch hKind with
          ⟨label, source, rfl, hSearch, hSource, hJoin⟩
        rw [← hSound.met_of_strict hTable hItem hId hGroup
          hStrict hIn hSearch hMade hSource]
        exact hMet _ hJoin
  · rw [Bool.not_eq_true] at hStrict
    rw [meetsGroup_of_loose hRenders hStrict,
      List.any_eq_true]
    have hTried := hHolds group.2
      (Filter.mem_conditions_iff.2
        ⟨group, hGroup, .inr ⟨hStrict, rfl⟩⟩)
    rcases Predicate.exists_of_anyHolds_true hTried with
      ⟨made, hMade, hIs⟩
    rcases exists_left_of_forall₂ hRenders.2 hMade with
      ⟨part, hPart, hPartRenders⟩
    have hKind : made.isSearch = false := by
      cases made <;> first | rfl | cases hIs
    refine ⟨part, hPart, ?_⟩
    rw [← hSound.compares_of_renders hTable hItem hId
      (wired_planOf.shows (Plan.carries_whole _))
      (mem_criteria hSource hPart) hPartRenders hKind]
    exact hIs

/- Where all is met, there is a text for every search. -/
theorem hasTexts_of_met
    (hSound : contents.Sound)
    (hTable : contents.tableNamed? query.source = some table)
    (hItem : item ∈ contents.items.rows)
    (hId : item.tableId = table.id)
    {searches : Searches}
    (hMet : ∀ join ∈ (contents.planOf query).joins,
      (contents.planOf query).met contents searches item
        join = true) :
    contents.hasTexts query table
      (contents.recordOf item) = true := by
  unfold hasTexts
  rw [List.all_eq_true]
  intro part hIn
  rcases List.mem_flatMap.1 hIn with
    ⟨source, hSource, hPart⟩
  rcases exists_group_of_source hTable hSource
    (List.ne_nil_of_mem hPart) with ⟨group, -, hRenders⟩
  rcases exists_right_of_forall₂ hRenders.2 hPart with
    ⟨made, -, hPartRenders⟩
  have hColumn := Plan.mem_referenced hIn
  cases hPartRenders with
  | search hSearch hSource hJoin =>
      rw [hSound.isSome_text_of_met hTable hItem hId hSource
        (hMet _ hJoin), Bool.or_true]
  | unsearchable hSearch hSource =>
      rw [← isSome_source? hColumn, hSource]
      simp
  | comparison hSearch =>
      have hIs : part.isSearch = false := hSearch
      rw [hIs]
      rfl

/- Where a condition fails, a group is not met. -/
theorem not_satisfies_of_fails
    (hSound : contents.Sound)
    (hTable : contents.tableNamed? query.source = some table)
    (hItem : item ∈ contents.items.rows)
    (hId : item.tableId = table.id)
    {condition : List Predicate}
    (hMem : condition ∈
      (contents.planOf query).filter.conditions)
    (hFails : (contents.planOf query).tries contents
      (Params.ofScalars query.params.entries) item
      condition = .ok false) :
    contents.satisfies query table
      (contents.recordOf item) = false := by
  rcases Filter.mem_conditions_iff.1 hMem with
    ⟨group, hGroup, hCondition⟩
  rcases exists_source_of_group hTable hGroup with
    ⟨source, hSource, hSome, hRenders⟩
  refine not_satisfies hSource hSome ?_
  rcases hCondition with
    ⟨hStrict, made, hMade, hKind, rfl⟩ | ⟨hLoose, rfl⟩
  · rcases exists_left_of_forall₂ hRenders.2 hMade with
      ⟨part, hPart, hPartRenders⟩
    rw [meetsGroup_of_strict hRenders hSome hStrict,
      List.all_eq_false]
    refine ⟨part, hPart, ?_⟩
    rw [hSound.meets_of_tries hTable hItem hId
      (mem_criteria hSource hPart) hPartRenders hKind hFails]
    exact Bool.false_ne_true
  · rw [meetsGroup_of_loose hRenders hLoose,
      List.any_eq_false]
    intro part hPart
    rcases exists_right_of_forall₂ hRenders.2 hPart with
      ⟨made, hMade, hPartRenders⟩
    rcases Predicate.forall_of_anyHolds_false hFails made
      hMade with ⟨hKind, hNot⟩
    rw [← hSound.compares_of_renders hTable hItem hId
      (wired_planOf.shows (Plan.carries_whole _))
      (mem_criteria hSource hPart) hPartRenders hKind, hNot]
    exact Bool.false_ne_true

/- Where a join is not met, a group or a text is missing. -/
theorem not_selects_of_unmet
    (hSound : contents.Sound)
    (hTable : contents.tableNamed? query.source = some table)
    (hItem : item ∈ contents.items.rows)
    (hId : item.tableId = table.id)
    {join : Join}
    (hJoin : join ∈ (contents.planOf query).joins)
    (hUnmet : (contents.planOf query).met contents
      ((contents.planOf query).filter.searches
        (Params.ofScalars query.params.entries)) item
      join = false) :
    (contents.satisfies query table
        (contents.recordOf item) &&
      contents.hasTexts query table
        (contents.recordOf item)) = false := by
  cases join with
  | key => cases hUnmet
  | attr label id => cases hUnmet
  | search label place =>
      have hJoins := hJoin
      rw [planOf_eq hTable] at hJoins
      rcases Plan.exists_renders_of_search
        mem_referenced_of_mem_knownOf hJoins with
        ⟨group, hGroup, source, hSource, hRenders, part, hPart,
          hMade, hSearch, hFrom⟩
      rw [← planOf_eq hTable] at hGroup
      have hSource := List.mem_of_mem_filter hSource
      have hIn := mem_criteria hSource hPart
      rw [Bool.and_eq_false_iff]
      by_cases hStrict : Filter.isStrict group = true
      · rw [hSound.met_of_strict hTable hItem hId hGroup
          hStrict hIn hSearch hMade hFrom] at hUnmet
        have hSome : source.criteria ≠ [] :=
          List.ne_nil_of_mem hPart
        refine .inl (not_satisfies hSource hSome ?_)
        rw [meetsGroup_of_strict hRenders hSome hStrict,
          List.all_eq_false]
        exact ⟨part, hPart, by simp [hUnmet]⟩
      · rw [Bool.not_eq_true] at hStrict
        rw [hSound.met_of_loose hTable hItem hId hGroup
          hStrict hMade hFrom] at hUnmet
        have hIs : part.isSearch = true := hSearch
        have hCan : contents.isSearchable table
            part.name = true := by
          rw [← isSome_source? (Plan.mem_referenced hIn)]
          exact Option.isSome_of_eq_some hFrom
        refine .inr ?_
        unfold hasTexts
        rw [List.all_eq_false]
        exact ⟨part, hIn, by simp [hIs, hCan, hUnmet]⟩

/- An item is found if and only if its record is selected. -/
theorem isSome_of_verdict
    (hSound : contents.Sound)
    (hTable : contents.tableNamed? query.source = some table)
    (hItem : item ∈ contents.items.rows)
    (hId : item.tableId = table.id)
    {known : List String}
    {found : Option JoinedRow}
    (hVerdict : (contents.planOf query).Verdict contents
      (Params.ofScalars query.params.entries)
      ((contents.planOf query).filter.searches
        (Params.ofScalars query.params.entries)) item known
      (contents.planOf query).joins
      (contents.planOf query).filter.conditions
      (.ok found)) :
    found.isSome =
      contents.selects query (contents.recordOf item) := by
  rw [selects, hTable, Option.any_some]
  cases hVerdict with
  | found hRow hMet hHolds =>
      rw [hSound.satisfies_of_met hTable hItem hId hMet
        hHolds, hSound.hasTexts_of_met hTable hItem hId hMet]
      rfl
  | unmet hJoin hUnmet =>
      rw [hSound.not_selects_of_unmet hTable hItem hId hJoin
        hUnmet]
      rfl
  | fails hMem hFails =>
      rw [hSound.not_satisfies_of_fails hTable hItem hId hMem
        hFails]
      rfl

end Sound

end Contents

end SparseTables

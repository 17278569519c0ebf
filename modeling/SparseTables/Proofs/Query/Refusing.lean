import SparseTables.Proofs.Query.Returning

/-
  This file shows why a query is not answered whose plan is
  within the bounds of the store: a search or a pattern is
  not acceptable, or alternatives come to a search before
  one of them is true.

  Main declarations:
    * `Contents.Refuses`
    * `Contents.Sound.refuses_of_tries`
    * `Contents.Sound.refuses_of_alone`
    * `Contents.Sound.select_cases`
-/

namespace SparseTables

------------------------------------------------------------
-- Reasons
------------------------------------------------------------

/- Is the pattern of a comparison beyond the bounds? -/
def Select.isTooLong
    (query : Select)
    (part : Criterion) : Bool :=
  Operator.ofText? part.op == some .like &&
    (query.argument part.param).storedText?.any fun pattern =>
      Pattern.mostBytes < pattern.utf8ByteSize

namespace Contents

/- Can a column be compared? -/
def isComparable
    (contents : Contents)
    (table : Table)
    (column : String) : Bool :=
  if Word.isReserved column then
    ["value", "id", "created", "lastmodified"].contains
      (Word.lower column)
  else
    (contents.attributeNamed? table.id column).isSome

/- Does a criterion search a column that can be searched? -/
def searches
    (contents : Contents)
    (table : Table)
    (part : Criterion) : Bool :=
  part.isSearch && contents.isSearchable table part.name

/-
  Why a query is not answered.  An operator is unknown, a
  search cannot be read, a pattern is too long, or a search
  stands among alternatives: with no comparison beside it, or
  with a record of which no alternative before it is true.
-/
inductive Refuses
    (contents : Contents)
    (query : Select) : Error → Prop where
  | unknown
      {part : Criterion}
      (hPart : part ∈ query.criteria)
      (hKind : part.isSearch = false)
      (hOp : Operator.ofText? part.op = none) :
      Refuses contents query
        (.store (.unknownOperator part.op))
  | unread
      {table : Table}
      (hTable : contents.tableNamed? query.source = some table)
      {part : Criterion}
      (hPart : part ∈ query.criteria)
      (hSearch : contents.searches table part = true)
      (hRead : query.search? part = none) :
      Refuses contents query (.store (.badSearch
        ((query.argument part.param).storedText?.getD "")))
  | tooLong
      {part : Criterion}
      (hPart : part ∈ query.criteria)
      (hLong : query.isTooLong part = true) :
      Refuses contents query (.store .patternTooLong)
  | alone
      {table : Table}
      (hTable : contents.tableNamed? query.source = some table)
      {group : Group}
      (hGroup : group ∈ query.groups)
      (hAny : group.combine = .any)
      {part : Criterion}
      (hPart : part ∈ group.criteria)
      (hSearch : contents.searches table part = true)
      (hOthers : ∀ other ∈ group.criteria,
        other.isSearch = true ∨
          contents.isComparable table other.name = false) :
      Refuses contents query (.store .misplacedSearch)
  | reached
      {table : Table}
      (hTable : contents.tableNamed? query.source = some table)
      {group : Group}
      (hGroup : group ∈ query.groups)
      (hAny : group.combine = .any)
      {before after : List Criterion}
      {part : Criterion}
      (hParts : group.criteria = before ++ part :: after)
      (hSearch : contents.searches table part = true)
      {record : Record}
      (hRecord : record ∈ contents.records query.source)
      (hBefore : ∀ other ∈ before,
        contents.meets query table record other = false) :
      Refuses contents query (.store .misplacedSearch)

end Contents

/- Two related lists are split where one of them is. -/
theorem exists_split_of_forall₂
    {α β : Type}
    {related : α → β → Prop}
    {left : List α}
    {before after : List β}
    {b : β}
    (hBoth : List.Forall₂ related left
      (before ++ b :: after)) :
    ∃ first a rest, left = first ++ a :: rest ∧
      List.Forall₂ related first before ∧ related a b := by
  induction before generalizing left with
  | nil =>
      cases hBoth with
      | cons hFirst hRest => exact ⟨[], _, _, rfl, .nil, hFirst⟩
  | cons next more ih =>
      cases hBoth with
      | cons hFirst hRest =>
          rcases ih hRest with ⟨first, a, rest, rfl, hMore, hB⟩
          exact ⟨_ :: first, a, rest, rfl, .cons hFirst hMore,
            hB⟩

/- Every search of a filter is asked by a predicate. -/
theorem Filter.exists_of_lookup
    {filter : Filter}
    {params : Params}
    {label : String}
    {read : Except Error Search}
    (hSearch : (filter.searches params).lookup label =
      some read) :
    ∃ group ∈ filter.groups, ∃ made ∈ group.2,
      made.search? params = some (label, read) := by
  have hMem : (label, read) ∈ filter.searches params := by
    rcases List.lookup_eq_some_iff.1 hSearch with
      ⟨before, after, hEntries, -⟩
    rw [hEntries]
    simp
  rcases List.mem_filterMap.1 hMem with ⟨made, hMade, hIs⟩
  rcases List.mem_flatMap.1 hMade with ⟨group, hGroup, hIn⟩
  exact ⟨group, List.mem_of_mem_filter hGroup, made, hIn,
    hIs⟩

namespace Contents

variable {contents : Contents} {query : Select}
variable {table : Table} {error : Error}

/- A column can be compared if it stands for something. -/
theorem isSome_expr?
    {column : String}
    (hColumn : column ∈ query.referenced) :
    ((contents.scopeOf query table).expr? column).isSome =
      contents.isComparable table column := by
  unfold Scope.expr? isComparable
  by_cases hWord : Word.isReserved column = true
  · have hNone :
        (contents.scopeOf query table).find? column = none := by
      rw [Option.eq_none_iff_forall_ne_some]
      intro bound hFind
      rcases Scope.mem_of_find? hFind with ⟨hBound, rfl⟩
      rw [(attributeNamed?_of_bound hBound).1] at hWord
      cases hWord
    rw [hNone, if_pos hWord]
    unfold Scope.pseudo?
    simp only [beq_iff_eq, scopeOf, Select.scope,
      Option.map_some]
    split_ifs <;> simp_all
  · rw [if_neg hWord]
    rw [Bool.not_eq_true] at hWord
    cases hRow : contents.attributeNamed? table.id column with
    | some row =>
        rcases Option.isSome_iff_exists.1
          (isSome_find? hColumn hWord hRow) with
          ⟨bound, hFind⟩
        rw [hFind]
        rfl
    | none =>
        have hNone : (contents.scopeOf query table).find?
            column = none := by
          rw [Option.eq_none_iff_forall_ne_some]
          intro bound hFind
          rcases Scope.mem_of_find? hFind with ⟨hBound, rfl⟩
          rw [(attributeNamed?_of_bound hBound).2] at hRow
          cases hRow
        have hNot : ∀ word ∈ Word.reserved,
            Word.lower column ≠ word :=
          fun word hMem => Word.lower_ne hWord hMem
        simp only [Word.reserved, List.forall_mem_cons]
          at hNot
        rw [hNone]
        simp [Scope.pseudo?, hNot]

/- The pattern of a predicate is that of its criterion. -/
theorem isTooLong_of_renders
    {scope : Scope}
    {joins : List Join}
    {part : Criterion}
    {made : Predicate}
    (hRenders : scope.Renders joins part made)
    (hLong : made.isTooLong
      (Params.ofScalars query.params.entries) = true) :
    query.isTooLong part = true := by
  cases hRenders with
  | search => cases hLong
  | unsearchable => cases hLong
  | comparison =>
      unfold Scope.condition at hLong
      split at hLong
      · rw [Predicate.isTooLong,
          Params.bound_eq_argument] at hLong
        exact hLong
      · cases hLong

/- A predicate that searches is for a criterion that does. -/
theorem searches_of_renders
    {joins : List Join}
    {part : Criterion}
    (hPart : part ∈ query.criteria)
    {made : Predicate}
    (hRenders : (contents.scopeOf query table).Renders joins
      part made)
    (hKind : made.isSearch = true) :
    contents.searches table part = true := by
  rcases hRenders.of_isSearch hKind with
    ⟨label, source, rfl, hSearch, hSource, -⟩
  have hIs : part.isSearch = true := hSearch
  rw [searches, hIs, ← isSome_source?
    (Plan.mem_referenced hPart), hSource]
  rfl

theorem combine_of_loose
    {scope : Scope}
    {joins : List Join}
    {source : Group}
    {group : Combine × List Predicate}
    (hRenders : Plan.GroupRenders scope joins source group)
    (hLoose : Filter.isStrict group = false) :
    source.combine = .any := by
  cases hKind : source.combine with
  | all =>
      rw [Filter.isStrict, hRenders.1, hKind] at hLoose
      cases hLoose
  | any => rfl

/- An operator of a plan is that of a criterion. -/
theorem exists_of_mem_operators
    {op : String}
    (hOp : op ∈ (contents.planOf query).operators) :
    ∃ part ∈ query.criteria,
      part.isSearch = false ∧ part.op = op := by
  rcases List.mem_filterMap.1 hOp with ⟨made, hMade, hIs⟩
  rcases List.mem_flatMap.1 hMade with ⟨group, hGroup, hIn⟩
  rcases Plan.exists_renders hGroup hIn with
    ⟨source, hSource, -, part, hPart, hRenders⟩
  refine ⟨part, Plan.mem_criteria_of_group hSource hPart, ?_⟩
  cases hRenders with
  | search => cases hIs
  | unsearchable => cases hIs
  | comparison hKind =>
      refine ⟨hKind, ?_⟩
      generalize hMade :
        Scope.condition _ part = made at hIs
      unfold Scope.condition at hMade
      split at hMade
      · subst hMade
        exact Option.some.inj hIs
      · subst hMade
        cases hIs

/- A search that cannot be read is asked by a criterion. -/
theorem refuses_of_unread
    (hTable : contents.tableNamed? query.source = some table)
    {label : String}
    (hSearch : ((contents.planOf query).filter.searches
      (Params.ofScalars query.params.entries)).lookup label =
        some (.error error)) :
    contents.Refuses query error := by
  rcases Filter.exists_of_lookup hSearch with
    ⟨group, hGroup, made, hIn, hIs⟩
  rcases exists_source_of_group hTable hGroup with
    ⟨source, hSource, -, hRenders⟩
  rcases exists_left_of_forall₂ hRenders.2 hIn with
    ⟨part, hPart, hPartRenders⟩
  have hPart := mem_criteria hSource hPart
  cases made with
  | never => cases hIs
  | compare left op param => cases hIs
  | «matches» other param =>
      have hSearches :=
        searches_of_renders hPart hPartRenders rfl
      rcases hPartRenders.of_isSearch rfl with
        ⟨_, _, hSame, _⟩
      cases hSame
      simp only [Predicate.search?, Params.bound_eq_argument,
        Option.some.injEq, Prod.mk.injEq] at hIs
      have hRead := hIs.2
      split at hRead
      · cases hRead
      · rename_i hNone
        cases hRead
        exact .unread hTable hPart hSearches hNone

namespace Sound

/- A condition breaks off where a criterion says so. -/
theorem refuses_of_tries
    (hSound : contents.Sound)
    (hTable : contents.tableNamed? query.source = some table)
    {item : ItemRow}
    (hItem : item ∈ contents.items.rows)
    (hId : item.tableId = table.id)
    {condition : List Predicate}
    (hMem : condition ∈
      (contents.planOf query).filter.conditions)
    (hRefused : (contents.planOf query).tries contents
      (Params.ofScalars query.params.entries) item
      condition = .error error) :
    contents.Refuses query error := by
  rcases Filter.mem_conditions_iff.1 hMem with
    ⟨group, hGroup, hCondition⟩
  rcases exists_source_of_group hTable hGroup with
    ⟨source, hSource, -, hRenders⟩
  rcases Predicate.exists_of_anyHolds_error hRefused with
    ⟨before, made, after, hParts, hBefore, hWhy⟩
  rcases hWhy with ⟨hKind, rfl⟩ | ⟨hLong, rfl⟩
  · rcases hCondition with
      ⟨-, part, -, hNot, rfl⟩ | ⟨hLoose, rfl⟩
    · have hSame : made = part := by
        have hMade : made ∈ [part] :=
          hParts ▸ List.mem_append_right _ List.mem_cons_self
        exact List.mem_singleton.1 hMade
      rw [hSame, hNot] at hKind
      cases hKind
    · have hRenders' := hRenders.2
      rw [hParts] at hRenders'
      rcases exists_split_of_forall₂ hRenders' with
        ⟨first, part, rest, hCriteria, hFirst, hPartRenders⟩
      have hIn : ∀ other ∈ source.criteria,
          other ∈ query.criteria :=
        fun other hOther => mem_criteria hSource hOther
      rw [hCriteria] at hIn
      refine .reached hTable hSource
        (combine_of_loose hRenders hLoose) hCriteria
        (searches_of_renders (hIn part (by simp))
          hPartRenders hKind)
        (mem_records_iff.2 ⟨table, hTable, item, hItem, hId,
          rfl⟩) fun other hOther => ?_
      rcases exists_right_of_forall₂ hFirst hOther with
        ⟨tried, hTried, hOtherRenders⟩
      rcases hBefore tried hTried with ⟨hTriedKind, hFalse⟩
      rw [← hSound.compares_of_renders hTable hItem hId
        (wired_planOf.shows (Plan.carries_whole _))
        (hIn other (List.mem_append_left _ hOther))
        hOtherRenders hTriedKind]
      exact hFalse
  · have hIn : made ∈ group.2 := by
      have hMade : made ∈ condition :=
        hParts ▸ List.mem_append_right _ List.mem_cons_self
      rcases hCondition with
        ⟨-, part, hPart, -, rfl⟩ | ⟨-, rfl⟩
      · rwa [List.mem_singleton.1 hMade]
      · exact hMade
    rcases exists_left_of_forall₂ hRenders.2 hIn with
      ⟨part, hPart, hPartRenders⟩
    exact .tooLong (mem_criteria hSource hPart)
      (isTooLong_of_renders hPartRenders hLong)

end Sound

/- Searches are misplaced if nothing is beside them. -/
theorem refuses_of_alone
    (hTable : contents.tableNamed? query.source = some table)
    {condition : List Predicate}
    (hMem : condition ∈
      (contents.planOf query).filter.conditions)
    (hParts : ∀ part ∈ condition, part.expr? = none)
    (hSearch : ∃ part ∈ condition, part.isSearch = true) :
    contents.Refuses query
      (.store .misplacedSearch) := by
  rcases hSearch with ⟨made, hMade, hKind⟩
  rcases Filter.mem_conditions_iff.1 hMem with
    ⟨group, hGroup, hCondition⟩
  rcases exists_source_of_group hTable hGroup with
    ⟨source, hSource, -, hRenders⟩
  rcases hCondition with
    ⟨-, part, -, hNot, rfl⟩ | ⟨hLoose, rfl⟩
  · rw [List.mem_singleton.1 hMade, hNot] at hKind
    cases hKind
  · rcases exists_left_of_forall₂ hRenders.2 hMade with
      ⟨part, hPart, hPartRenders⟩
    refine .alone hTable hSource
      (combine_of_loose hRenders hLoose) hPart
      (searches_of_renders (mem_criteria hSource hPart)
        hPartRenders hKind) fun other hOther => ?_
    rcases exists_right_of_forall₂ hRenders.2 hOther with
      ⟨tried, hTried, hOtherRenders⟩
    have hNone := hParts tried hTried
    cases hOtherRenders with
    | search hIs => exact .inl hIs
    | unsearchable hIs => exact .inl hIs
    | comparison =>
        refine .inr ?_
        rw [← isSome_expr? (Plan.mem_referenced
          (mem_criteria hSource hOther))]
        unfold Scope.condition at hNone
        split at hNone
        · cases hNone
        · rename_i hExpr
          rw [hExpr]
          rfl

namespace Sound

/- A plan that is run returns records or stops. -/
theorem select_of_prepare
    (hSound : contents.Sound)
    (hCheck : query.check = .ok ())
    (hSource : Word.isReserved query.source = false)
    (hColumns : ∀ column ∈ query.columns,
      Word.sameLetters column "count" = false)
    (hPrepare : (contents.planOf query).prepare = .ok ()) :
    (∃ answer, contents.select query = .ok answer ∧
      contents.Delivers query answer.rows) ∨
    ∃ error, contents.select query = .error error ∧
      contents.Refuses query error := by
  unfold Contents.select
  rw [compile_eq hCheck hSource]
  simp only [bind, Except.bind]
  rcases wired_planOf.run_cases hPrepare
    (fun item hItem => hSound.isSome_key hItem) with
    ⟨rows, hRun, hFinds⟩ | ⟨error, hRun, hNever, hStops⟩
  · rw [hRun]
    exact .inl ⟨_, rfl, hSound.delivers_of_finds hCheck
      hColumns hFinds _⟩
  · have hSome :
        (contents.tableNamed? query.source).isSome := by
      by_contra hNone
      rw [Bool.not_eq_true, Option.isSome_eq_false_iff,
        Option.isNone_iff_eq_none] at hNone
      exact hNever (by simp [Filter.isNever, table_planOf,
        hNone])
    rcases Option.isSome_iff_exists.1 hSome with
      ⟨table, hTable⟩
    rw [hRun]
    refine .inr ⟨error, rfl, ?_⟩
    cases hStops with
    | unread hJoin hSearch =>
        exact refuses_of_unread hTable hSearch
    | misplaced hMem hParts hSearch =>
        exact refuses_of_alone hTable hMem hParts hSearch
    | refused hItem hId hMem hRefused =>
        rw [table_planOf, hTable] at hId
        exact hSound.refuses_of_tries hTable hItem
          (Option.some.inj hId).symm hMem hRefused

/-
  A query whose plan is within the bounds returns records, or
  it is refused for a reason.
-/
theorem select_cases
    (hSound : contents.Sound)
    (hCheck : query.check = .ok ())
    (hSource : Word.isReserved query.source = false)
    (hColumns : ∀ column ∈ query.columns,
      Word.sameLetters column "count" = false)
    (hDistinct : (contents.planOf query).Distinct)
    (hBounded : (contents.planOf query).Bounded) :
    (∃ answer, contents.select query = .ok answer ∧
      contents.Returns query answer.rows) ∨
    ∃ error, contents.select query = .error error ∧
      contents.Refuses query error := by
  rcases Plan.prepare_cases hDistinct hBounded with
    hPrepare | ⟨op, hOp, hUnknown, hPrepare⟩
  · exact (hSound.select_of_prepare hCheck hSource hColumns
      hPrepare).imp_left fun ⟨answer, hAnswer, hDelivers⟩ =>
        ⟨answer, hAnswer, hDelivers.returns⟩
  · rcases exists_of_mem_operators hOp with
      ⟨part, hPart, hKind, rfl⟩
    refine .inr ⟨_, ?_, .unknown hPart hKind hUnknown⟩
    unfold Contents.select
    rw [compile_eq hCheck hSource]
    simp only [bind, Except.bind, Plan.run, hPrepare]

end Sound

/- The plan of a query that is answered can be run. -/
theorem prepare_of_select
    {answer : ResultSet}
    (hAnswer : contents.select query = .ok answer) :
    (contents.planOf query).prepare = .ok () := by
  rcases check_of_select hAnswer with ⟨hCheck, hSource⟩
  unfold Contents.select at hAnswer
  rw [compile_eq hCheck hSource] at hAnswer
  cases hMade : (contents.planOf query).prepare with
  | ok _ => rfl
  | error error =>
      simp [bind, Except.bind, Plan.run, hMade] at hAnswer

namespace Sound

/- Whatever is answered are the records selected. -/
theorem delivers_of_select
    (hSound : contents.Sound)
    (hColumns : ∀ column ∈ query.columns,
      Word.sameLetters column "count" = false)
    {answer : ResultSet}
    (hAnswer : contents.select query = .ok answer) :
    contents.Delivers query answer.rows := by
  rcases check_of_select hAnswer with ⟨hCheck, hSource⟩
  rcases hSound.select_of_prepare hCheck hSource hColumns
    (prepare_of_select hAnswer) with
    ⟨other, hOther, hDelivers⟩ | ⟨error, hError, -⟩
  · rw [hOther] at hAnswer
    cases hAnswer
    exact hDelivers
  · rw [hError] at hAnswer
    cases hAnswer

end Sound

end Contents

end SparseTables

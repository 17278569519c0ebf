import Mathlib.Data.List.Nodup
import SparseTables.Plan.Course

/-
  This file shows that the parts of a plan are joined in an
  order in which nothing is missing.

  The order of the joins depends on the limits and searches
  of a plan, but every join has its turn, and a search comes
  when the value that it is in has been joined.

  Main declarations:
    * `Plan.Wired`
    * `Plan.course`
    * `Plan.Wired.mem_course_iff`
    * `Plan.Wired.sourced_course`
-/

namespace SparseTables

namespace Plan

variable {plan : Plan}

------------------------------------------------------------
-- Wiring
------------------------------------------------------------

/- Is a label that of a joined value? -/
def HasValue (plan : Plan) (label : String) : Prop :=
  ∃ join ∈ plan.joins,
    join.searched? = none ∧ join.label = label

/- Is the value joined that an expression is taken from? -/
def Knows (plan : Plan) : Expr → Prop
  | .value label _ => plan.HasValue label
  | _ => True

/-
  The aliases differ, and whatever the parts of a plan refer
  to is there.
-/
structure Wired (plan : Plan) : Prop where
  aliases : plan.aliases.Nodup
  sources : ∀ join ∈ plan.joins,
    ∀ source, join.searched? = some source →
      source = itemAlias ∨ plan.HasValue source
  comparisons : ∀ group ∈ plan.filter.groups,
    ∀ part ∈ group.2,
      ∀ left, part.expr? = some left → plan.Knows left
  searches : ∀ group ∈ plan.filter.groups,
    ∀ label param, .matches label param ∈ group.2 →
      label ∈ plan.joins.map Join.label

theorem Wired.nodup_labels (hWired : plan.Wired) :
    (plan.joins.map Join.label).Nodup :=
  (List.nodup_cons.1 hWired.aliases).2

/- The alias of the items is not that of a value. -/
theorem Wired.not_hasValue_itemAlias (hWired : plan.Wired) :
    ¬ plan.HasValue itemAlias := by
  intro ⟨join, hJoin, _, hSame⟩
  exact (List.nodup_cons.1 hWired.aliases).1
    (List.mem_map.2 ⟨join, hJoin, hSame⟩)

/- Nor is that of a search. -/
theorem Wired.not_hasValue_of_search
    (hWired : plan.Wired)
    {join : Join}
    (hJoin : join ∈ plan.joins)
    (hKind : join.searched?.isSome) :
    ¬ plan.HasValue join.label := by
  intro ⟨value, hValue, hNone, hSame⟩
  rw [List.inj_on_of_nodup_map hWired.nodup_labels hValue
    hJoin hSame] at hNone
  rw [hNone] at hKind
  cases hKind

------------------------------------------------------------
-- Early searches
------------------------------------------------------------

theorem earlyOfKeys_subset (searches : List Join) :
    plan.earlyOfKeys searches ⊆ searches := by
  unfold earlyOfKeys
  split
  · rename_i join hFirst
    split
    · exact List.nil_subset _
    · intro other hOther
      rw [List.mem_singleton.1 hOther]
      exact List.mem_of_find?_eq_some hFirst
  · split
    · exact List.nil_subset _
    · split
      · exact List.nil_subset _
      · exact List.take_subset _ _

theorem earlyOfMany_subset (strict loose : List Join) :
    plan.earlyOfMany strict loose ⊆ strict ++ loose := by
  have hLoose : loose.take 1 ⊆ strict ++ loose :=
    List.subset_append_of_subset_right _ (List.take_subset _ _)
  unfold earlyOfMany
  split
  · split
    · exact hLoose
    · exact List.nil_subset _
  · split
    · split
      · exact List.take_subset _ _
      · exact List.nil_subset _
    · split
      · exact List.append_subset.2
          ⟨hLoose, List.subset_append_left _ _⟩
      · exact List.take_subset _ _

/- What comes early is a search of the plan. -/
theorem mem_of_mem_early
    {join : Join}
    (hEarly : join ∈ plan.early) :
    join ∈ plan.joins ∧ join.searched?.isSome := by
  suffices hSearch : join ∈ plan.joins.filter fun join =>
      join.searched?.isSome by
    simpa using hSearch
  generalize hSearches : (plan.joins.filter fun join =>
    join.searched?.isSome) = searches
  unfold early at hEarly
  simp only [hSearches, List.partition_eq_filter_filter]
    at hEarly
  generalize hOthers : (searches.filter (not ∘ fun join =>
    join.searched? == some itemAlias)) = others at hEarly
  have hParts :
      others.filter plan.isStrictSearch ++
        others.filter (not ∘ plan.isStrictSearch) ⊆
          searches := by
    subst hOthers
    exact List.append_subset.2
      ⟨(List.filter_sublist.trans List.filter_sublist).subset,
        (List.filter_sublist.trans
          List.filter_sublist).subset⟩
  split at hEarly
  · exact List.mem_of_mem_filter
      (earlyOfKeys_subset _ hEarly)
  · split at hEarly
    · rename_i first hStrict hLoose
      rw [hStrict, hLoose] at hParts
      split at hEarly
      · exact hParts (List.mem_append_left _ hEarly)
      · cases hEarly
    · rename_i first hStrict hLoose
      rw [hStrict, hLoose] at hParts
      split at hEarly
      · exact hParts (List.mem_append_right _ hEarly)
      · cases hEarly
    · exact hParts (earlyOfMany_subset _ _ hEarly)

theorem mem_tied_iff
    {source : String}
    {join : Join} :
    join ∈ plan.tied source ↔
      join ∈ plan.early ∧ join.searched? = some source := by
  simp [tied]

theorem mem_followers_iff
    {source : String}
    {join : Join} :
    join ∈ plan.followers source ↔
      join ∈ plan.joins ∧ join.searched? = some source ∧
        plan.isStrictSearch join = true ∧
          join ∉ plan.early := by
  simp [followers, and_assoc]

/- What is drawn to the front is not joined twice. -/
theorem perm_drop
    {first attributes : List Join}
    (hPrefix : first <+: attributes)
    (keys : List Join) :
    (first ++ keys ++ attributes.drop first.length).Perm
      (attributes ++ keys) := by
  rcases hPrefix with ⟨rest, rfl⟩
  rw [List.drop_left, List.append_assoc, List.append_assoc]
  exact List.perm_append_comm.append_left first

/- What stands behind joins is one of them or a search. -/
theorem mem_withSearches_iff
    {joins : List Join}
    {join : Join} :
    join ∈ plan.withSearches joins ↔
      ∃ value ∈ joins, join = value ∨
        join ∈ plan.tied value.label ∨
          join ∈ plan.followers value.label := by
  simp [withSearches]

theorem mem_joins_of_mem_withSearches
    {joins : List Join}
    (hJoins : joins ⊆ plan.joins)
    {join : Join}
    (hMem : join ∈ plan.withSearches joins) :
    join ∈ plan.joins := by
  rcases mem_withSearches_iff.1 hMem with
    ⟨value, hValue, rfl | hTied | hFollows⟩
  · exact hJoins hValue
  · exact (mem_of_mem_early (mem_tied_iff.1 hTied).1).1
  · exact (mem_followers_iff.1 hFollows).1

------------------------------------------------------------
-- The whole course
------------------------------------------------------------

/- The values that are joined behind the items, in order. -/
def laterValues (plan : Plan) : List Join :=
  let values := plan.joins.filter fun join =>
    join.searched?.isNone && !plan.beforeItems.contains join
  let (attributes, keys) := values.partition Join.isAttribute
  let first :=
    if plan.sorts then attributes.takeWhile plan.isLimited
    else []
  first ++ keys ++ attributes.drop first.length

/- The searches that are joined last of all. -/
def lastSearches (plan : Plan) : List Join :=
  plan.joins.filter fun join =>
    join.searched?.isSome && !plan.isStrictSearch join &&
      !plan.early.contains join

theorem afterItems_eq :
    plan.afterItems =
      plan.followers itemAlias ++
        plan.withSearches plan.laterValues ++
          plan.lastSearches :=
  rfl

theorem mem_laterValues_iff {join : Join} :
    join ∈ plan.laterValues ↔
      join ∈ plan.joins ∧ join.searched? = none ∧
        join ∉ plan.beforeItems := by
  have hDrop (first attributes keys : List Join)
      (hPrefix : first <+: attributes) :
      join ∈ first ++ keys ++ attributes.drop first.length ↔
        join ∈ attributes ∨ join ∈ keys := by
    rw [(perm_drop hPrefix keys).mem_iff,
      List.mem_append]
  have hFirst (attributes : List Join) :
      (if plan.sorts then attributes.takeWhile plan.isLimited
        else []) <+: attributes := by
    split
    · exact List.takeWhile_prefix _
    · exact List.nil_prefix
  unfold laterValues
  simp only [List.partition_eq_filter_filter]
  rw [hDrop _ _ _ (hFirst _)]
  simp only [List.mem_filter, Function.comp_apply,
    Bool.and_eq_true, Option.isNone_iff_eq_none,
    Bool.not_eq_true', List.contains_eq_mem,
    decide_eq_false_iff_not]
  cases join.isAttribute <;> simp

/- All joins in the order in which the items go through. -/
def course (plan : Plan) : List Join :=
  plan.tied itemAlias ++ plan.beforeItems ++ plan.afterItems

theorem mem_joins_of_mem_beforeItems
    {join : Join}
    (hMem : join ∈ plan.beforeItems) :
    join ∈ plan.joins := by
  unfold beforeItems at hMem
  split at hMem
  · exact mem_joins_of_mem_withSearches
      List.filter_sublist.subset hMem
  · cases hMem

theorem mem_joins_of_mem_afterItems
    {join : Join}
    (hMem : join ∈ plan.afterItems) :
    join ∈ plan.joins := by
  rw [afterItems_eq, List.mem_append, List.mem_append] at hMem
  rcases hMem with (hFollows | hLater) | hLast
  · exact (mem_followers_iff.1 hFollows).1
  · exact mem_joins_of_mem_withSearches
      (fun _ hValue => (mem_laterValues_iff.1 hValue).1)
      hLater
  · exact List.mem_of_mem_filter hLast

/- Every value is joined, and the searches that it leads. -/
theorem exists_withSearches_subset
    {value : Join}
    (hValue : value ∈ plan.joins)
    (hKind : value.searched? = none) :
    ∃ values, value ∈ values ∧
      plan.withSearches values ⊆ plan.course := by
  by_cases hBefore : value ∈ plan.beforeItems
  · refine ⟨plan.joins.filter plan.isLimited, ?_, ?_⟩
    · unfold beforeItems at hBefore
      split at hBefore
      · rcases mem_withSearches_iff.1 hBefore with
          ⟨other, hOther, rfl | hTied | hFollows⟩
        · exact hOther
        · rw [(mem_tied_iff.1 hTied).2] at hKind
          cases hKind
        · rw [(mem_followers_iff.1 hFollows).2.1] at hKind
          cases hKind
      · cases hBefore
    · have hSome : (plan.tied itemAlias).isEmpty = true := by
        by_contra hTied
        rw [beforeItems, if_neg hTied] at hBefore
        cases hBefore
      intro join hJoin
      refine List.mem_append_left _
        (List.mem_append_right _ ?_)
      rwa [beforeItems, if_pos hSome]
  · refine ⟨plan.laterValues,
      mem_laterValues_iff.2 ⟨hValue, hKind, hBefore⟩, ?_⟩
    intro join hJoin
    refine List.mem_append_right _ ?_
    rw [afterItems_eq]
    exact List.mem_append_left _
      (List.mem_append_right _ hJoin)

/- Every join has its turn. -/
theorem Wired.mem_course_iff
    (hWired : plan.Wired)
    {join : Join} :
    join ∈ plan.course ↔ join ∈ plan.joins := by
  constructor
  · intro hMem
    rcases List.mem_append.1 hMem with hMem | hAfter
    · rcases List.mem_append.1 hMem with hTied | hBefore
      · exact (mem_of_mem_early (mem_tied_iff.1 hTied).1).1
      · exact mem_joins_of_mem_beforeItems hBefore
    · exact mem_joins_of_mem_afterItems hAfter
  · intro hJoin
    have hAfter (hMem : join ∈ plan.followers itemAlias ++
        plan.withSearches plan.laterValues ++
          plan.lastSearches) :
        join ∈ plan.course :=
      List.mem_append_right _ (afterItems_eq ▸ hMem)
    cases hKind : join.searched? with
    | none =>
        rcases exists_withSearches_subset hJoin hKind with
          ⟨values, hMem, hSubset⟩
        exact hSubset (mem_withSearches_iff.2
          ⟨join, hMem, .inl rfl⟩)
    | some source =>
        -- A search follows its source or is left to the end.
        by_cases hLed : join ∈ plan.tied source ∨
            join ∈ plan.followers source
        · rcases hWired.sources join hJoin source hKind with
            rfl | ⟨value, hValue, hNone, rfl⟩
          · rcases hLed with hTied | hFollows
            · exact List.mem_append_left _
                (List.mem_append_left _ hTied)
            · exact hAfter (List.mem_append_left _
                (List.mem_append_left _ hFollows))
          · rcases exists_withSearches_subset hValue hNone
              with ⟨values, hMem, hSubset⟩
            exact hSubset (mem_withSearches_iff.2
              ⟨value, hMem, .inr hLed⟩)
        · rw [not_or, mem_tied_iff, mem_followers_iff] at hLed
          refine hAfter (List.mem_append_right _ ?_)
          have hLoose : join ∉ plan.early ∧
              plan.isStrictSearch join = false := by
            have hEarly := fun h => hLed.1 ⟨h, hKind⟩
            refine ⟨hEarly, Bool.not_eq_true _ ▸ fun h => ?_⟩
            exact hLed.2 ⟨hJoin, hKind, h, hEarly⟩
          simp [lastSearches, hJoin, hKind, hLoose]

------------------------------------------------------------
-- Sources
------------------------------------------------------------

/- Every search comes behind the value that it is in. -/
def Sourced (known : List String) : List Join → Prop
  | [] => True
  | join :: rest =>
      (∀ source, join.searched? = some source →
        source ∈ known) ∧
      Sourced (join.label :: known) rest

theorem Sourced.mono
    {known more : List String}
    {joins : List Join}
    (hSourced : Sourced known joins)
    (hKnown : known ⊆ more) :
    Sourced more joins := by
  induction joins generalizing known more with
  | nil => trivial
  | cons join rest ih =>
      exact ⟨fun source hSource =>
          hKnown (hSourced.1 source hSource),
        ih hSourced.2 (List.cons_subset_cons _ hKnown)⟩

theorem sourced_append_iff
    {known : List String}
    {first second : List Join} :
    Sourced known (first ++ second) ↔
      Sourced known first ∧
        Sourced ((first.map Join.label).reverse ++ known)
          second := by
  induction first generalizing known with
  | nil => simp [Sourced]
  | cons join rest ih =>
      simp [Sourced, ih, and_assoc]

theorem sourced_of_forall
    {known : List String}
    {joins : List Join}
    (hSources : ∀ join ∈ joins,
      ∀ source, join.searched? = some source →
        source ∈ known) :
    Sourced known joins := by
  induction joins generalizing known with
  | nil => trivial
  | cons join rest ih =>
      rw [List.forall_mem_cons] at hSources
      refine ⟨hSources.1, ih fun later hLater source hSource =>
        List.mem_cons_of_mem _
          (hSources.2 later hLater source hSource)⟩

/- Searches right behind their values have sources. -/
theorem sourced_withSearches
    (known : List String)
    {values : List Join}
    (hValues : ∀ value ∈ values, value.searched? = none) :
    Sourced known (plan.withSearches values) := by
  induction values generalizing known with
  | nil => trivial
  | cons value rest ih =>
      rw [List.forall_mem_cons] at hValues
      have hLed : ∀ join ∈ plan.tied value.label ++
          plan.followers value.label,
          ∀ source, join.searched? = some source →
            source ∈ value.label :: known := by
        intro join hJoin source hSource
        have hSame : join.searched? = some value.label := by
          rcases List.mem_append.1 hJoin with hTied | hFollows
          · exact (mem_tied_iff.1 hTied).2
          · exact (mem_followers_iff.1 hFollows).2.1
        rw [hSource] at hSame
        cases hSame
        exact List.mem_cons_self
      have hSplit : plan.withSearches (value :: rest) =
          (value :: (plan.tied value.label ++
            plan.followers value.label)) ++
            plan.withSearches rest :=
        List.flatMap_cons
      rw [hSplit, sourced_append_iff]
      refine ⟨⟨?_, sourced_of_forall hLed⟩, ih _ hValues.2⟩
      intro source hSource
      rw [hValues.1] at hSource
      cases hSource

/- A value that is joined is known from then on. -/
theorem mem_labels_of_hasValue
    {label : String}
    (hValue : plan.HasValue label) :
    label ∈ plan.beforeItems.map Join.label ∨
      label ∈ (plan.withSearches plan.laterValues).map
        Join.label := by
  rcases hValue with ⟨value, hMem, hKind, rfl⟩
  by_cases hBefore : value ∈ plan.beforeItems
  · exact .inl (List.mem_map_of_mem hBefore)
  · exact .inr (List.mem_map_of_mem (mem_withSearches_iff.2
      ⟨value, mem_laterValues_iff.2 ⟨hMem, hKind, hBefore⟩,
        .inl rfl⟩))

/- Nothing is searched before it is joined. -/
theorem Wired.sourced_course (hWired : plan.Wired) :
    Sourced [itemAlias] plan.course := by
  have hOf {joins : List Join} {source : String}
      (hSources : ∀ join ∈ joins,
        join.searched? = some source)
      {known : List String}
      (hKnown : source ∈ known) :
      Sourced known joins := by
    refine sourced_of_forall fun join hJoin other hOther => ?_
    rw [hSources join hJoin] at hOther
    cases hOther
    exact hKnown
  rw [course, afterItems_eq]
  simp only [sourced_append_iff]
  refine ⟨⟨?_, ?_⟩, ⟨?_, ?_⟩, ?_⟩
  · exact hOf (fun join hJoin => (mem_tied_iff.1 hJoin).2)
      (by simp)
  · unfold beforeItems
    split
    · refine sourced_withSearches _ fun value hValue => ?_
      have hLimited := (List.mem_filter.1 hValue).2
      rw [isLimited, Bool.and_eq_true] at hLimited
      exact Option.isNone_iff_eq_none.1 hLimited.1
    · trivial
  · exact hOf
      (fun join hJoin => (mem_followers_iff.1 hJoin).2.1)
      (by simp)
  · exact sourced_withSearches _ fun value hValue =>
      (mem_laterValues_iff.1 hValue).2.1
  · refine sourced_of_forall fun join hJoin source hSource =>
      ?_
    rcases hWired.sources join (List.mem_of_mem_filter hJoin)
      source hSource with rfl | hValue
    · simp
    · have hLabels := mem_labels_of_hasValue hValue
      simp only [List.map_append, List.reverse_append,
        List.mem_append, List.mem_reverse]
      tauto

end Plan

end SparseTables

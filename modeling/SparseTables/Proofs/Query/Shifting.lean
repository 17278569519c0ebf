import SparseTables.Proofs.Plan.Shifting
import SparseTables.Proofs.Query.Wiring

/-
  This file builds plans from shifted tables and attributes.

  The same query becomes the same plan up to the shift.  The
  plan does not look at the identities of items if the query
  mentions no column of that name.

  Main declarations:
    * `Select.IdFree`
    * `Plan.build_shifted`
    * `Plan.idFree_build`
-/

namespace SparseTables

variable (shift : Shift)

------------------------------------------------------------
-- Scopes
------------------------------------------------------------

def Bound.shifted (shift : Shift) (bound : Bound) : Bound :=
  { bound with known := bound.known.shifted shift }

def Scope.shifted (shift : Shift) (scope : Scope) : Scope where
  table := scope.table.map (Table.shifted shift)
  bound := scope.bound.map (Bound.shifted shift)

namespace Scope

variable (scope : Scope) (column : String)

theorem find?_shifted :
    (scope.shifted shift).find? column =
      (scope.find? column).map (Bound.shifted shift) :=
  find?_map_of (fun _ => rfl) _

/- Columns stand for the same expressions. -/
theorem expr?_shifted :
    (scope.shifted shift).expr? column =
      scope.expr? column := by
  have hPseudo : (scope.shifted shift).pseudo? column =
      scope.pseudo? column := by
    simp only [pseudo?, shifted, Option.map_map]
    rfl
  simp only [expr?, find?_shifted, hPseudo]
  cases scope.find? column <;> rfl

theorem output_shifted :
    (scope.shifted shift).output column =
      scope.output column := by
  simp only [output, expr?_shifted]

theorem source?_shifted :
    (scope.shifted shift).source? column =
      scope.source? column := by
  simp only [source?, find?_shifted, Option.map_map]
  refine if_congr Iff.rfl ?_ rfl
  simp only [shifted]
  cases scope.table <;> rfl

end Scope

------------------------------------------------------------
-- Parts of plans
------------------------------------------------------------

namespace Plan

def Joined.shifted
    (shift : Shift)
    (joined : Joined) : Joined :=
  { joined with
    joins := joined.joins.map (Join.shifted shift) }

/- A shifted join takes the same alias. -/
theorem Joined.add_shifted
    (joined : Joined)
    (base : String)
    (join join' : String → Join)
    (hJoin : ∀ label,
      join' label = (join label).shifted shift) :
    (joined.shifted shift).add base join' =
      ((joined.add base join).1,
        (joined.add base join).2.shifted shift) := by
  simp only [add, shifted, hJoin, List.map_append,
    List.map_cons, List.map_nil]

theorem joinKey_shifted
    (query : Select)
    (table : Option Table)
    (joined : Joined) :
    joinKey query (table.map (Table.shifted shift))
        (joined.shifted shift) =
      (joinKey query table joined).shifted shift := by
  have hAdd := joined.add_shifted shift keyAlias
    (fun _ => .key) (fun _ => .key) fun _ => rfl
  simp only [joinKey, Option.isSome_map]
  split
  · exact congrArg Prod.snd hAdd
  · rfl

theorem joinAttributes_shifted
    (joined : Joined)
    (known : List (String × Attribute)) :
    joinAttributes (joined.shifted shift)
        (known.map (Prod.map id (Attribute.shifted shift))) =
      ((joinAttributes joined known).1.map
          (Bound.shifted shift),
        (joinAttributes joined known).2.shifted shift) := by
  induction known generalizing joined with
  | nil => rfl
  | cons first rest ih =>
      rcases first with ⟨column, row⟩
      have hAdd := joined.add_shifted shift
        ("iv" ++ Word.clean column)
        (fun label => .attr label row.id)
        (fun label => .attr label (row.shifted shift).id)
        fun _ => rfl
      simp only [List.map_cons, Prod.map, joinAttributes, id,
        hAdd, ih]
      rfl

theorem predicate_shifted
    (scope : Scope)
    (joined : Joined)
    (part : Criterion) :
    predicate (scope.shifted shift) (joined.shifted shift)
        part =
      ((predicate scope joined part).1,
        (predicate scope joined part).2.shifted shift) := by
  simp only [predicate, Scope.source?_shifted,
    Scope.expr?_shifted]
  split
  · cases scope.source? part.name with
    | none => rfl
    | some source =>
        have hAdd := joined.add_shifted shift
          ("fts" ++ Word.clean part.name)
          (fun label => .search label source)
          (fun label => .search label source) fun _ => rfl
        exact congrArg (fun added =>
          (Predicate.matches added.1 part.param, added.2)) hAdd
  · cases scope.expr? part.name <;> rfl

theorem predicates_shifted
    (scope : Scope)
    (joined : Joined)
    (parts : List Criterion) :
    predicates (scope.shifted shift) (joined.shifted shift)
        parts =
      ((predicates scope joined parts).1,
        (predicates scope joined parts).2.shifted shift) := by
  induction parts generalizing joined with
  | nil => rfl
  | cons part rest ih =>
      simp only [predicates, predicate_shifted, ih]

theorem groups_shifted
    (scope : Scope)
    (joined : Joined)
    (made : List Group) :
    groups (scope.shifted shift) (joined.shifted shift)
        made =
      ((groups scope joined made).1,
        (groups scope joined made).2.shifted shift) := by
  induction made generalizing joined with
  | nil => rfl
  | cons group rest ih =>
      simp only [groups, predicates_shifted, ih]
      split <;> rfl

theorem project_shifted
    (scope : Scope)
    (aliases : Aliases)
    (columns : List String) :
    project (scope.shifted shift) aliases columns =
      project scope aliases columns := by
  induction columns generalizing aliases with
  | nil => rfl
  | cons column rest ih =>
      simp only [project, Scope.output_shifted, ih]

theorem rankOrders_shifted (joins : List Join) :
    rankOrders (joins.map (Join.shifted shift)) =
      rankOrders joins := by
  simp only [rankOrders, List.findSome?_map,
    Function.comp_def, Join.searchAlias?_shifted]

------------------------------------------------------------
-- Whole plans
------------------------------------------------------------

variable (query : Select) (table : Option Table)
variable (known : List (String × Attribute))

/- The plan for shifted contents is the shifted plan. -/
theorem build_shifted :
    build query (table.map (Table.shifted shift))
        (known.map (Prod.map id (Attribute.shifted shift))) =
      (build query table known).shifted shift := by
  have hKey := joinKey_shifted shift query table ⟨.empty, []⟩
  have hKnown := joinAttributes_shifted shift
    (joinKey query table ⟨.empty, []⟩) known
  have hScope : (⟨table.map (Table.shifted shift),
      (joinAttributes (joinKey query table ⟨.empty, []⟩)
        known).1.map (Bound.shifted shift)⟩ : Scope) =
        (query.scope table known).shifted shift :=
    rfl
  simp only [build]
  rw [show (⟨.empty, []⟩ : Joined) =
    Joined.shifted shift ⟨.empty, []⟩ from rfl, hKey, hKnown]
  simp only [hScope, groups_shifted, project_shifted]
  simp only [Joined.shifted, rankOrders_shifted,
    Plan.shifted, Filter.shifted, Option.map_map]
  rfl

end Plan

------------------------------------------------------------
-- Identities of items
------------------------------------------------------------

/- A query that mentions no identities of items. -/
def Select.IdFree (query : Select) : Prop :=
  ∀ column ∈ query.referenced, Word.lower column ≠ "id"

instance (query : Select) : Decidable query.IdFree :=
  inferInstanceAs (Decidable (∀ column ∈ query.referenced,
    Word.lower column ≠ "id"))

/- Only one name stands for the identities of items. -/
theorem Scope.expr?_ne_id
    (scope : Scope)
    {column : String}
    (hColumn : Word.lower column ≠ "id") :
    scope.expr? column ≠ some (.item .id) := by
  unfold expr? pseudo?
  cases scope.find? column with
  | some bound => simp
  | none =>
      cases scope.table <;> simp [hColumn] <;> grind

namespace Plan

variable {query : Select}

theorem idFree_build
    (hFree : query.IdFree)
    (table : Option Table)
    (known : List (String × Attribute)) :
    (build query table known).IdFree where
  outputs := by
    intro output hOutput
    have hFst : output.1 ∈ query.columns.map
        (query.scope table known).output := by
      rw [← project_map_fst (query.scope table known) .empty]
      exact List.mem_map_of_mem hOutput
    rcases List.mem_map.1 hFst with ⟨column, hColumn, hSame⟩
    have hName := hFree column (List.mem_eraseDups.2
      (List.mem_append_left _ (List.mem_append_left _ hColumn)))
    have hNot := (query.scope table known).expr?_ne_id hName
    rw [← hSame]
    unfold Scope.output
    split
    · nofun
    cases hExpr : (query.scope table known).expr? column with
    | none => nofun
    | some expr =>
        rintro rfl
        exact hNot hExpr
  filter := by
    intro group hGroup part hPart
    rcases exists_renders hGroup hPart with
      ⟨source, hSource, -, criterion, hCriterion, hRenders⟩
    have hName := hFree criterion.name (mem_referenced
      (mem_criteria_of_group hSource hCriterion))
    have hNot := (query.scope table known).expr?_ne_id hName
    cases hRenders with
    | search => nofun
    | unsearchable => nofun
    | comparison hSearch =>
        unfold Scope.condition
        cases hExpr : (query.scope table known).expr?
            criterion.name with
        | none => nofun
        | some left =>
            intro hSame
            exact hNot (hExpr.trans hSame)

end Plan

end SparseTables

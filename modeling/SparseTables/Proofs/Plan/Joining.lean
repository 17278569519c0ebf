import SparseTables.Plan.Evaluate
import SparseTables.Proofs.NameMap
import SparseTables.Proofs.Plan.Wiring

/-
  This file defines the whole row of an item.

  All rows that an item gets on its way hold parts of the
  whole row, so what is taken from a row does not depend on
  the time when it is taken.

  Main declarations:
    * `Plan.whole`
    * `Plan.Carries`
    * `Plan.Shows`
    * `Plan.Wired.shows`
    * `Plan.Wired.eval_eq`
-/

namespace SparseTables

------------------------------------------------------------
-- Entries
------------------------------------------------------------

/- An entry is found by its name if no other has the name. -/
theorem lookup_of_mem
    {α : Type}
    {entries : List (String × α)}
    (hNames : (entries.map Prod.fst).Nodup)
    {entry : String × α}
    (hEntry : entry ∈ entries) :
    entries.lookup entry.1 = some entry.2 := by
  induction entries with
  | nil => cases hEntry
  | cons first rest ih =>
      rw [List.map_cons, List.nodup_cons] at hNames
      rw [lookup_cons_eq]
      rcases List.mem_cons.1 hEntry with rfl | hEntry
      · rw [if_pos rfl]
      · have hOther : entry.1 ≠ first.1 := fun hSame =>
          hNames.1 (hSame ▸ List.mem_map_of_mem hEntry)
        rw [if_neg hOther]
        exact ih hNames.2 hEntry

/- Some of the entries give what all of them do. -/
theorem lookup_of_subset
    {α : Type}
    {all part : List (String × α)}
    (hAll : (all.map Prod.fst).Nodup)
    (hSubset : part ⊆ all)
    {label : String}
    (hLabel : label ∈ part.map Prod.fst) :
    part.lookup label = all.lookup label := by
  induction part with
  | nil => cases hLabel
  | cons first rest ih =>
      rw [List.cons_subset] at hSubset
      rw [lookup_cons_eq]
      by_cases hSame : label = first.1
      · rw [if_pos hSame, hSame,
          lookup_of_mem hAll hSubset.1]
      · rw [if_neg hSame]
        refine ih hSubset.2 ?_
        rw [List.map_cons, List.mem_cons] at hLabel
        exact hLabel.resolve_left hSame

/- The value that a join adds to the row of an item. -/
def Contents.joinedValue
    (contents : Contents)
    (item : ItemRow) : Join → Option Value
  | .key => contents.value? item.valueId
  | .attr _ id => contents.slotValue? item.id id
  | .search _ _ => none

namespace Plan

variable {plan : Plan} {contents : Contents}
variable {item : ItemRow}

------------------------------------------------------------
-- The whole row
------------------------------------------------------------

/- The values that the row of an item can get. -/
def valuesOf
    (plan : Plan)
    (contents : Contents)
    (item : ItemRow) : List (String × Option Value) :=
  (plan.joins.filter fun join => join.searched?.isNone).map
    fun join => (join.label, contents.joinedValue item join)

/- The row of an item with all values. -/
def whole
    (plan : Plan)
    (contents : Contents)
    (item : ItemRow) : JoinedRow :=
  ⟨item, plan.valuesOf contents item, []⟩

/- A row of an item shows the values of all joins. -/
structure Shows
    (plan : Plan)
    (contents : Contents)
    (item : ItemRow)
    (row : JoinedRow) : Prop where
  same : row.item = item
  values : ∀ join ∈ plan.joins, join.searched? = none →
    row.values.lookup join.label =
      some (contents.joinedValue item join)

/- A row of an item has the values of the known aliases. -/
structure Carries
    (plan : Plan)
    (contents : Contents)
    (item : ItemRow)
    (known : List String)
    (row : JoinedRow) : Prop where
  same : row.item = item
  values : row.values ⊆ plan.valuesOf contents item
  known : ∀ label ∈ known, plan.HasValue label →
    label ∈ row.values.map Prod.fst

theorem carries_whole (known : List String) :
    plan.Carries contents item known
      (plan.whole contents item) where
  same := rfl
  values := List.Subset.refl _
  known := by
    intro label _ ⟨join, hJoin, hKind, hSame⟩
    simp only [whole, valuesOf, List.map_map, List.mem_map,
      List.mem_filter]
    exact ⟨join, ⟨hJoin, by simp [hKind]⟩, hSame⟩

theorem Carries.mono
    {known fewer : List String}
    {row : JoinedRow}
    (hRow : plan.Carries contents item known row)
    (hFewer : ∀ label ∈ fewer, plan.HasValue label →
      label ∈ known) :
    plan.Carries contents item fewer row :=
  { hRow with
    known := fun label hLabel hValue =>
      hRow.known label (hFewer label hLabel hValue) hValue }

/- A row that gets a value carries one alias more. -/
theorem Carries.push
    {known : List String}
    {row : JoinedRow}
    (hRow : plan.Carries contents item known row)
    {join : Join}
    (hJoin : join ∈ plan.joins)
    (hKind : join.searched? = none) :
    plan.Carries contents item (join.label :: known)
      { row with
        values := row.values ++
          [(join.label, contents.joinedValue item join)] } where
  same := hRow.same
  values := by
    refine List.append_subset.2 ⟨hRow.values, ?_⟩
    intro entry hEntry
    rw [List.mem_singleton.1 hEntry]
    exact List.mem_map.2 ⟨join,
      List.mem_filter.2 ⟨hJoin, by simp [hKind]⟩, rfl⟩
  known := by
    intro label hLabel hValue
    rw [List.map_append, List.mem_append]
    rcases List.mem_cons.1 hLabel with rfl | hLabel
    · exact .inr List.mem_cons_self
    · exact .inl (hRow.known label hLabel hValue)

/- The alias of a search adds no value to a row. -/
theorem Carries.skip
    (hWired : plan.Wired)
    {known : List String}
    {row : JoinedRow}
    (hRow : plan.Carries contents item known row)
    {label source : String}
    (hJoin : .search label source ∈ plan.joins)
    (found : List (String × SearchRow)) :
    plan.Carries contents item (label :: known)
      { row with searches := found } where
  same := hRow.same
  values := hRow.values
  known := by
    intro other hOther hValue
    rcases List.mem_cons.1 hOther with rfl | hOther
    · exact absurd hValue
        (hWired.not_hasValue_of_search hJoin rfl)
    · exact hRow.known other hOther hValue

------------------------------------------------------------
-- What is taken from a row
------------------------------------------------------------

theorem Wired.nodup_valuesOf (hWired : plan.Wired) :
    ((plan.valuesOf contents item).map Prod.fst).Nodup := by
  rw [valuesOf, List.map_map]
  exact hWired.nodup_labels.sublist
    (List.filter_sublist.map Join.label)

/- All rows of an item agree on a known value. -/
theorem Wired.lookup_eq
    (hWired : plan.Wired)
    {known : List String}
    {row : JoinedRow}
    (hRow : plan.Carries contents item known row)
    {label : String}
    (hValue : plan.HasValue label)
    (hKnown : label ∈ known) :
    row.values.lookup label =
      (plan.valuesOf contents item).lookup label :=
  lookup_of_subset hWired.nodup_valuesOf hRow.values
    (hRow.known label hKnown hValue)

/- The value of a join stands under its alias. -/
theorem Wired.lookup_valuesOf
    (hWired : plan.Wired)
    {join : Join}
    (hJoin : join ∈ plan.joins)
    (hKind : join.searched? = none) :
    (plan.valuesOf contents item).lookup join.label =
      some (contents.joinedValue item join) :=
  lookup_of_mem hWired.nodup_valuesOf (List.mem_map.2
    ⟨join, List.mem_filter.2 ⟨hJoin, by simp [hKind]⟩, rfl⟩)

/- A row that carries all aliases shows all values. -/
theorem Wired.shows
    (hWired : plan.Wired)
    {row : JoinedRow}
    (hRow : plan.Carries contents item plan.aliases row) :
    plan.Shows contents item row where
  same := hRow.same
  values := by
    intro join hJoin hKind
    rw [hWired.lookup_eq hRow ⟨join, hJoin, hKind, rfl⟩
      (List.mem_cons_of_mem _ (List.mem_map_of_mem hJoin)),
      hWired.lookup_valuesOf hJoin hKind]

/- What an expression gives does not depend on the row. -/
theorem Wired.eval_eq
    (hWired : plan.Wired)
    {known : List String}
    {row : JoinedRow}
    (hRow : plan.Carries contents item known row)
    {expr : Expr}
    (hExpr : plan.Knows expr)
    (hKnown : expr.source ∈ itemAlias :: known) :
    expr.eval row = expr.eval (plan.whole contents item) := by
  cases expr with
  | null => rfl
  | countAll => rfl
  | item column =>
      cases column <;>
        simp only [Expr.eval, hRow.same, whole]
  | value label column =>
      have hLabel : label ∈ known := by
        refine (List.mem_cons.1 hKnown).resolve_left ?_
        intro hItem
        exact hWired.not_hasValue_itemAlias (hItem ▸ hExpr)
      simp only [Expr.eval, whole,
        hWired.lookup_eq hRow hExpr hLabel]

/- What a search is in does not depend on the row. -/
theorem Wired.valueId?_eq
    (hWired : plan.Wired)
    {known : List String}
    {row : JoinedRow}
    (hRow : plan.Carries contents item known row)
    {source : String}
    (hSource : source = itemAlias ∨ plan.HasValue source)
    (hKnown : source ∈ itemAlias :: known) :
    row.valueId? source =
      (plan.whole contents item).valueId? source := by
  unfold JoinedRow.valueId?
  by_cases hItem : source = itemAlias
  · simp [hItem, hRow.same, whole]
  · have hValue := hSource.resolve_left hItem
    have hLabel :=
      (List.mem_cons.1 hKnown).resolve_left hItem
    simp only [whole, hRow.same,
      hWired.lookup_eq hRow hValue hLabel]

end Plan

end SparseTables

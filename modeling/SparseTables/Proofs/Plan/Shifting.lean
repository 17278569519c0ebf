import SparseTables.Proofs.Contents.Shifting
import SparseTables.Proofs.Loops
import SparseTables.Proofs.Plan.Conditions

/-
  This file runs plans on shifted contents.

  A plan refers to tables and attributes by their identities.
  With these shifted it joins the same parts in the same
  order, and it gives the same rows if it does not look at
  the identities of items.

  Main declarations:
    * `Plan.shifted`
    * `Plan.IdFree`
    * `Plan.early_shifted`
    * `Plan.matching_shifted`
    * `Plan.run_shifted`
    * `Statement.twins_select`
-/

namespace SparseTables

variable (shift : Shift)

------------------------------------------------------------
-- Joins
------------------------------------------------------------

/- The join of an attribute under another identity. -/
def Join.shifted (shift : Shift) : Join → Join
  | .attr label id => .attr label (id + shift.attributes)
  | join => join

namespace Join

@[simp] theorem label_shifted (join : Join) :
    (join.shifted shift).label = join.label := by
  cases join <;> rfl

@[simp] theorem searchAlias?_shifted (join : Join) :
    (join.shifted shift).searchAlias? = join.searchAlias? := by
  cases join <;> rfl

@[simp] theorem searched?_shifted (join : Join) :
    (join.shifted shift).searched? = join.searched? := by
  cases join <;> rfl

@[simp] theorem isAttribute_shifted (join : Join) :
    (join.shifted shift).isAttribute = join.isAttribute := by
  cases join <;> rfl

@[simp] theorem depth_shifted (join : Join) :
    (join.shifted shift).depth = join.depth := by
  cases join <;> rfl

theorem shifted_injective :
    Function.Injective (Join.shifted shift) := by
  intro left right hSame
  cases left <;> cases right <;> simp_all [shifted]

end Join

/- The joins that a condition leaves are the same. -/
theorem filter_joins_shifted
    (wanted wanted' : Join → Bool)
    (hWanted : ∀ join, wanted' (join.shifted shift) =
      wanted join)
    (joins : List Join) :
    (joins.map (Join.shifted shift)).filter wanted' =
      (joins.filter wanted).map (Join.shifted shift) := by
  simp only [List.filter_map, Function.comp_def, hWanted]

/- A join is among others if it is so when shifted. -/
theorem contains_joins_shifted
    (joins : List Join)
    (join : Join) :
    (joins.map (Join.shifted shift)).contains
        (join.shifted shift) =
      joins.contains join := by
  rw [Bool.eq_iff_iff, List.contains_iff_mem,
    List.contains_iff_mem]
  exact List.mem_map_of_injective
    (Join.shifted_injective shift)

------------------------------------------------------------
-- Plans
------------------------------------------------------------

/- A filter for the table under another identity. -/
def Filter.shifted (shift : Shift) (filter : Filter) :
    Filter :=
  { filter with table := filter.table.map (· + shift.tables) }

namespace Plan

/- The same plan for shifted contents. -/
def shifted (shift : Shift) (plan : Plan) : Plan :=
  { plan with
    joins := plan.joins.map (Join.shifted shift)
    filter := plan.filter.shifted shift }

variable (plan : Plan)

------------------------------------------------------------
-- The order of joins
------------------------------------------------------------

@[simp] theorem counts_shifted :
    (plan.shifted shift).counts = plan.counts :=
  rfl

@[simp] theorem sorts_shifted :
    (plan.shifted shift).sorts = plan.sorts :=
  rfl

@[simp] theorem fixesId_shifted :
    (plan.shifted shift).fixesId = plan.fixesId :=
  rfl

@[simp] theorem fixesItems_shifted :
    (plan.shifted shift).fixesItems = plan.fixesItems :=
  rfl

@[simp] theorem isStrictSearch_shifted (join : Join) :
    (plan.shifted shift).isStrictSearch (join.shifted shift) =
      plan.isStrictSearch join := by
  simp only [isStrictSearch, Join.label_shifted]
  rfl

@[simp] theorem isLimited_shifted (join : Join) :
    (plan.shifted shift).isLimited (join.shifted shift) =
      plan.isLimited join := by
  simp only [isLimited, Join.searched?_shifted,
    Join.label_shifted]
  rfl

theorem attributes_shifted :
    (plan.shifted shift).attributes =
      plan.attributes.map (Join.shifted shift) :=
  filter_joins_shifted shift _ _
    (Join.isAttribute_shifted shift) _

theorem limited_shifted :
    (plan.shifted shift).limited =
      plan.limited.map (Join.shifted shift) := by
  rw [limited, attributes_shifted]
  exact filter_joins_shifted shift _ _
    (plan.isLimited_shifted shift) _

theorem earlyOfKeys_shifted (searches : List Join) :
    (plan.shifted shift).earlyOfKeys
        (searches.map (Join.shifted shift)) =
      (plan.earlyOfKeys searches).map (Join.shifted shift) := by
  have hFind := find?_map_of
    (plan.isStrictSearch_shifted shift) searches
  simp only [earlyOfKeys, hFind, attributes_shifted,
    List.length_map, ← List.map_take, fixesId_shifted,
    fixesItems_shifted, sorts_shifted]
  cases searches.find? plan.isStrictSearch with
  | some join =>
      simp only [Option.map_some,
        apply_ite (List.map (Join.shifted shift)),
        List.map_cons, List.map_nil]
      rfl
  | none =>
      simp only [Option.map_none,
        apply_ite (List.map (Join.shifted shift)),
        List.map_nil]

theorem leadsStrictly_shifted :
    (plan.shifted shift).leadsStrictly = plan.leadsStrictly := by
  simp only [leadsStrictly, limited_shifted,
    attributes_shifted, List.isEmpty_map, List.length_map,
    fixesId_shifted, fixesItems_shifted, sorts_shifted]

theorem leadsLoosely_shifted (search : Join) :
    (plan.shifted shift).leadsLoosely (search.shifted shift) =
      plan.leadsLoosely search := by
  simp only [leadsLoosely, limited_shifted,
    attributes_shifted, List.isEmpty_map, List.length_map,
    List.any_map, Function.comp_def, Join.searched?_shifted,
    Join.label_shifted, fixesId_shifted, fixesItems_shifted,
    sorts_shifted]

theorem earlyOfMany_shifted (strict loose : List Join) :
    (plan.shifted shift).earlyOfMany
        (strict.map (Join.shifted shift))
        (loose.map (Join.shifted shift)) =
      (plan.earlyOfMany strict loose).map
        (Join.shifted shift) := by
  simp only [earlyOfMany, List.isEmpty_map, List.length_map,
    ← List.map_take, ← List.map_append, fixesId_shifted,
    fixesItems_shifted, sorts_shifted,
    apply_ite (List.map (Join.shifted shift)), List.map_nil]

@[simp] theorem joins_shifted :
    (plan.shifted shift).joins =
      plan.joins.map (Join.shifted shift) :=
  rfl

/- The same searches come before the items. -/
theorem early_shifted :
    (plan.shifted shift).early =
      plan.early.map (Join.shifted shift) := by
  simp only [early, List.partition_eq_filter_filter,
    joins_shifted, List.filter_map, Function.comp_def,
    Join.searched?_shifted, isStrictSearch_shifted,
    List.isEmpty_map, earlyOfKeys_shifted,
    apply_ite (List.map (Join.shifted shift))]
  refine if_congr Iff.rfl rfl ?_
  -- Both sides look at the same two lists, renumbered on one.
  generalize (plan.joins.filter fun join =>
    join.searched?.isSome).filter (fun join =>
      !join.searched? == some itemAlias) = searches
  generalize searches.filter plan.isStrictSearch = strict
  generalize searches.filter (fun join =>
    !plan.isStrictSearch join) = loose
  have hMany := plan.earlyOfMany_shifted shift strict loose
  rcases strict with _ | ⟨first, _ | ⟨second, more⟩⟩ <;>
    rcases loose with _ | ⟨other, _ | ⟨next, rest⟩⟩
  case cons.nil.nil =>
    simp only [List.map_cons, List.map_nil,
      leadsStrictly_shifted]
    split <;> rfl
  case nil.cons.nil =>
    simp only [List.map_cons, List.map_nil,
      leadsLoosely_shifted]
    split <;> rfl
  all_goals exact hMany

/- Searches behind a value stay behind it. -/
theorem tied_shifted (source : String) :
    (plan.shifted shift).tied source =
      (plan.tied source).map (Join.shifted shift) := by
  simp only [tied, early_shifted, List.filter_map,
    Function.comp_def, Join.searched?_shifted]

theorem followers_shifted (source : String) :
    (plan.shifted shift).followers source =
      (plan.followers source).map (Join.shifted shift) := by
  simp only [followers, joins_shifted, early_shifted,
    List.filter_map, Function.comp_def,
    Join.searched?_shifted, isStrictSearch_shifted,
    contains_joins_shifted]

theorem withSearches_shifted (joins : List Join) :
    (plan.shifted shift).withSearches
        (joins.map (Join.shifted shift)) =
      (plan.withSearches joins).map (Join.shifted shift) := by
  simp only [withSearches, List.flatMap_map,
    Join.label_shifted, tied_shifted, followers_shifted,
    List.map_flatMap, List.map_cons, List.map_append]

theorem beforeItems_shifted :
    (plan.shifted shift).beforeItems =
      plan.beforeItems.map (Join.shifted shift) := by
  simp only [beforeItems, tied_shifted, List.isEmpty_map,
    joins_shifted,
    apply_ite (List.map (Join.shifted shift)), List.map_nil,
    ← withSearches_shifted]
  simp only [List.filter_map, Function.comp_def,
    isLimited_shifted]

theorem afterItems_shifted :
    (plan.shifted shift).afterItems =
      plan.afterItems.map (Join.shifted shift) := by
  simp only [afterItems, List.partition_eq_filter_filter,
    joins_shifted, List.filter_map, Function.comp_def,
    Join.searched?_shifted, Join.isAttribute_shifted,
    beforeItems_shifted, early_shifted, sorts_shifted,
    contains_joins_shifted, isStrictSearch_shifted,
    followers_shifted, List.map_append,
    ← withSearches_shifted, List.takeWhile_map,
    isLimited_shifted, List.map_drop, List.length_map,
    apply_ite List.length, List.length_nil,
    apply_ite (List.map (Join.shifted shift)), List.map_nil]

end Plan

------------------------------------------------------------
-- Joined rows
------------------------------------------------------------

/- The same terms under another identity. -/
def SearchRow.shifted
    (shift : Shift)
    (row : SearchRow) : SearchRow :=
  { row with id := row.id + shift.values }

/- The same row of shifted contents. -/
def JoinedRow.shifted
    (shift : Shift)
    (row : JoinedRow) : JoinedRow where
  item := row.item.shifted shift
  values :=
    row.values.map
      (Prod.map id (Option.map (Value.shifted shift)))
  searches :=
    row.searches.map (Prod.map id (SearchRow.shifted shift))

namespace JoinedRow

variable (row : JoinedRow)

theorem lookup_values_shifted (label : String) :
    (row.shifted shift).values.lookup label =
      (row.values.lookup label).map
        (Option.map (Value.shifted shift)) :=
  lookup_map_of id label (fun _ => rfl) _ _

theorem lookup_searches_shifted (label : String) :
    (row.shifted shift).searches.lookup label =
      (row.searches.lookup label).map
        (SearchRow.shifted shift) :=
  lookup_map_of id label (fun _ => rfl) _ _

theorem valueId?_shifted (source : String) :
    (row.shifted shift).valueId? source =
      (row.valueId? source).map (· + shift.values) := by
  simp only [valueId?, lookup_values_shifted]
  split
  · rfl
  · rcases row.values.lookup source with _ | _ | found <;> rfl

end JoinedRow

/- What is no identity of an item is the same. -/
theorem Expr.eval_shifted
    (expr : Expr)
    (hExpr : expr ≠ .item .id)
    (row : JoinedRow) :
    expr.eval (row.shifted shift) = expr.eval row := by
  cases expr with
  | null => rfl
  | countAll => rfl
  | item column =>
      cases column with
      | id => exact absurd rfl hExpr
      | created => rfl
      | modified => rfl
  | value label column =>
      simp only [Expr.eval, JoinedRow.lookup_values_shifted]
      rcases row.values.lookup label with _ | _ | found <;> rfl

------------------------------------------------------------
-- Joining
------------------------------------------------------------

theorem SearchRow.ofValue?_shifted (value : Value) :
    ofValue? (value.shifted shift) =
      (ofValue? value).map (SearchRow.shifted shift) := by
  simp only [ofValue?, Option.map_map]
  rfl

namespace Contents

variable (contents : Contents)

theorem slotValue?_shifted (itemId attributeId : Int) :
    (contents.shifted shift).slotValue?
        (itemId + shift.items)
        (attributeId + shift.attributes) =
      (contents.slotValue? itemId attributeId).map
        (Value.shifted shift) := by
  simp only [slotValue?, slot?_shifted]
  cases contents.slot? itemId attributeId with
  | none => rfl
  | some slot => exact contents.value?_shifted shift _

theorem searchRows_shifted :
    (contents.shifted shift).searchRows =
      contents.searchRows.map (SearchRow.shifted shift) := by
  simp only [searchRows, shifted, Register.shifted,
    List.filterMap_map, List.map_filterMap,
    Function.comp_def, SearchRow.ofValue?_shifted]

theorem searchRow?_shifted (id : Int) :
    (contents.shifted shift).searchRow? (id + shift.values) =
      (contents.searchRow? id).map
        (SearchRow.shifted shift) := by
  simp only [searchRow?, value?_shifted]
  cases contents.value? id with
  | none => rfl
  | some value => exact SearchRow.ofValue?_shifted shift value

/- A text stands at the same place among all texts. -/
theorem placeOf_shifted (row : SearchRow) :
    (contents.shifted shift).placeOf (row.shifted shift) =
      contents.placeOf row := by
  simp only [placeOf, searchRows_shifted, List.map_map,
    List.findIdx_map, Function.comp_def, SearchRow.shifted,
    beq_shifted]

theorem anyText_shifted
    (searches : Searches)
    (label : String) :
    (contents.shifted shift).anyText searches label =
      contents.anyText searches label := by
  simp only [anyText, searchRows_shifted, List.any_map,
    Function.comp_def, SearchRow.shifted]

/- The same join extends or drops the same row. -/
theorem joinOne_shifted
    (searches : Searches)
    (row : JoinedRow)
    (join : Join) :
    (contents.shifted shift).joinOne searches
        (row.shifted shift) (join.shifted shift) =
      (contents.joinOne searches row join).map
        (Option.map (JoinedRow.shifted shift)) := by
  cases join with
  | key =>
      have hFind := contents.value?_shifted shift
        row.item.valueId
      simp only [Join.shifted, joinOne, JoinedRow.shifted,
        ItemRow.shifted, hFind]
      cases contents.value? row.item.valueId <;>
        simp [Except.map, pure, Except.pure, JoinedRow.shifted,
          ItemRow.shifted]
  | attr label id =>
      have hFind := contents.slotValue?_shifted shift
        row.item.id id
      simp only [Join.shifted, joinOne, JoinedRow.shifted,
        ItemRow.shifted, hFind]
      simp [Except.map, pure, Except.pure, JoinedRow.shifted,
        ItemRow.shifted]
  | search label source =>
      simp only [Join.shifted, joinOne]
      rcases (searches.lookup label).sequence with error | search
      · rfl
      simp only [Except.map, pure, Except.pure, bind,
        Except.bind, JoinedRow.valueId?_shifted]
      refine congrArg Except.ok ?_
      rcases row.valueId? source with _ | id
      · rfl
      simp only [Option.map_some, Option.bind_some,
        searchRow?_shifted]
      rcases contents.searchRow? id with _ | found
      · rfl
      simp only [Option.map_some, Option.bind_some,
        SearchRow.shifted]
      split <;> simp [JoinedRow.shifted, SearchRow.shifted]

end Contents

------------------------------------------------------------
-- Conditions
------------------------------------------------------------

/- No condition looks at the identities of items. -/
def Filter.IdFree (filter : Filter) : Prop :=
  ∀ group ∈ filter.groups, ∀ part ∈ group.2,
    part.expr? ≠ some (.item .id)

/- A row meets the same conditions. -/
theorem Filter.holdsNow_shifted
    {filter : Filter}
    (hFree : filter.IdFree)
    (params : Params)
    (before after : List String)
    (row : JoinedRow) :
    (filter.shifted shift).holdsNow params before after
        (row.shifted shift) =
      filter.holdsNow params before after row := by
  refine Except.allM_congr fun condition hDue => ?_
  have hCondition := (List.mem_filter.1 hDue).1
  refine Predicate.anyHolds_congr
    fun part hPart left hLeft => ?_
  rcases exists_group hCondition hPart with
    ⟨group, hGroup, hOf⟩
  refine left.eval_shifted shift (fun hSame => ?_) row
  exact hFree group hGroup part hOf (hSame ▸ hLeft)

------------------------------------------------------------
-- Finding rows
------------------------------------------------------------

namespace Plan

/- A plan that does not look at the identities of items. -/
structure IdFree (plan : Plan) : Prop where
  outputs : ∀ output ∈ plan.outputs, output.1 ≠ .item .id
  filter : plan.filter.IdFree

variable {plan : Plan}
variable (contents : Contents)
variable (params : Params)
variable (searches : Contents.Searches)

/- The same early searches let rows through. -/
theorem opens_shifted
    (plan : Plan)
    (contents : Contents)
    (searches : Contents.Searches)
    (joins : List Join)
    (before : List String) :
    (plan.shifted shift).opens (contents.shifted shift)
        searches (joins.map (Join.shifted shift)) before =
      plan.opens contents searches joins before := by
  induction joins generalizing before with
  | nil => rfl
  | cons next rest ih =>
      simp only [List.map_cons, opens, Join.label_shifted,
        Contents.anyText_shifted, ih]
      rfl

/- The same row is joined, or dropped, or refused. -/
theorem advance_shifted
    (hFree : plan.IdFree)
    (joins : List Join)
    (before : List String)
    (row : JoinedRow) :
    (plan.shifted shift).advance (contents.shifted shift)
        params searches (joins.map (Join.shifted shift)) before
        (row.shifted shift) =
      (plan.advance contents params searches joins before
        row).map (Option.map (JoinedRow.shifted shift)) := by
  induction joins generalizing before row with
  | nil => rfl
  | cons next rest ih =>
      simp only [List.map_cons, advance, Join.label_shifted,
        Contents.joinOne_shifted]
      rcases contents.joinOne searches row next with
        error | _ | joined
      · rfl
      · rfl
      simp only [Except.map, Option.map_some, bind, Except.bind]
      rw [show (plan.shifted shift).filter =
        plan.filter.shifted shift from rfl,
        Filter.holdsNow_shifted shift hFree.filter]
      rcases plan.filter.holdsNow params before
        (next.label :: before) joined with error | _ | _
      · rfl
      · rfl
      · exact ih _ _

/- An item is joined as it is under another identity. -/
theorem joinOf?_shifted
    (hFree : plan.IdFree)
    (item : ItemRow) :
    (plan.shifted shift).joinOf? (contents.shifted shift)
        params searches (item.shifted shift) =
      (plan.joinOf? contents params searches item).map
        (Option.map (JoinedRow.shifted shift)) := by
  have hTable : ((plan.shifted shift).filter.table ≠
      some (item.shifted shift).tableId) ↔
        plan.filter.table ≠ some item.tableId := by
    rw [show (plan.shifted shift).filter.table =
      plan.filter.table.map (· + shift.tables) from rfl]
    cases plan.filter.table <;>
      simp [ItemRow.shifted]
  have hFirst := advance_shifted shift contents params
    searches hFree
    (plan.tied itemAlias ++ plan.beforeItems)
    (plan.early.map Join.label) ⟨item, [], []⟩
  have hLabels (joins : List Join) :
      (joins.map (Join.shifted shift)).map Join.label =
        joins.map Join.label := by
    simp only [List.map_map, Function.comp_def,
      Join.label_shifted]
  simp only [joinOf?, hTable, tied_shifted,
    beforeItems_shifted, early_shifted, afterItems_shifted,
    hLabels, ← List.map_append]
  split
  · rfl
  simp only [show (⟨item.shifted shift, [], []⟩ : JoinedRow) =
    JoinedRow.shifted shift ⟨item, [], []⟩ from rfl, hFirst]
  rcases plan.advance contents params searches
    (plan.tied itemAlias ++ plan.beforeItems)
    (plan.early.map Join.label) ⟨item, [], []⟩ with
    error | _ | joined
  · rfl
  · rfl
  simp only [Except.map, Option.map_some, bind, Except.bind]
  rw [show (plan.shifted shift).filter =
    plan.filter.shifted shift from rfl,
    Filter.holdsNow_shifted shift hFree.filter]
  rcases plan.filter.holdsNow params _ _ joined with
    error | _ | _
  · rfl
  · rfl
  · exact advance_shifted shift contents params searches
      hFree _ _ _

/- The same rows are found, in the same order. -/
theorem matching_shifted
    (hFree : plan.IdFree) :
    (plan.shifted shift).matching (contents.shifted shift)
        params searches =
      (plan.matching contents params searches).map
        (List.map (JoinedRow.shifted shift)) := by
  have hRows (items : List ItemRow) :
      (items.map (ItemRow.shifted shift)).mapM
          ((plan.shifted shift).joinOf?
            (contents.shifted shift) params searches) =
        (items.mapM (plan.joinOf? contents params searches)).map
          (List.map (Option.map (JoinedRow.shifted shift))) := by
    induction items with
    | nil => rfl
    | cons item rest ih =>
        simp only [List.map_cons, List.mapM_cons, ih,
          joinOf?_shifted shift contents params searches hFree]
        rcases plan.joinOf? contents params searches item with
          error | joined
        · rfl
        rcases rest.mapM (plan.joinOf? contents params
          searches) with error | more <;> rfl
  have hOpens := opens_shifted shift plan contents searches
    plan.early []
  simp only [matching, early_shifted, hOpens]
  rcases plan.opens contents searches plan.early [] with
    error | _ | _
  · rfl
  · rfl
  simp only [bind, Except.bind, if_true]
  rw [show (contents.shifted shift).items.rows =
    contents.items.rows.map (ItemRow.shifted shift) from rfl,
    hRows]
  rcases contents.items.rows.mapM
    (plan.joinOf? contents params searches) with error | rows
  · rfl
  · simp only [Except.map, pure, Except.pure,
      List.filterMap_map, List.map_filterMap,
      Function.comp_def, id]

------------------------------------------------------------
-- Order
------------------------------------------------------------

theorem scoreOf_shifted (row : JoinedRow) (label : String) :
    scoreOf (contents.shifted shift) searches
        (row.shifted shift) label =
      scoreOf contents searches row label := by
  simp only [scoreOf, JoinedRow.lookup_searches_shifted]
  rcases searches.lookup label with _ | _ | search
  · rfl
  · rfl
  rcases row.searches.lookup label with _ | found
  · rfl
  · simp only [Option.map_some, Contents.placeOf_shifted]

/- Orders speak of outputs, so of no identity of items. -/
theorem compareBy_shifted
    (hFree : plan.IdFree)
    {score score' : String → JoinedRow → Float}
    (hScore : ∀ label row,
      score' label (row.shifted shift) = score label row)
    (left right : JoinedRow)
    (orders : List OrderKey) :
    (plan.shifted shift).compareBy score'
        (left.shifted shift) (right.shifted shift) orders =
      plan.compareBy score left right orders := by
  induction orders with
  | nil => rfl
  | cons key rest ih =>
      simp only [compareBy, ih]
      congr 1
      cases key with
      | rank label => simp only [hScore]
      | output label descending =>
          simp only [show (plan.shifted shift).outputNamed?
            label = plan.outputNamed? label from rfl]
          cases hNamed : plan.outputNamed? label with
          | none => rfl
          | some expr =>
              rcases Option.map_eq_some_iff.1 hNamed with
                ⟨output, hFind, rfl⟩
              have hExpr := hFree.outputs output
                (List.mem_of_find?_eq_some hFind)
              simp only [output.1.eval_shifted shift hExpr]

theorem sort_shifted
    (hFree : plan.IdFree)
    (rows : List JoinedRow) :
    (plan.shifted shift).sort (contents.shifted shift)
        searches (rows.map (JoinedRow.shifted shift)) =
      (plan.sort contents searches rows).map
        (JoinedRow.shifted shift) := by
  have hScore (label : String) (row : JoinedRow) :=
    scoreOf_shifted shift contents searches row label
  simp only [sort, show (plan.shifted shift).orders =
    plan.orders from rfl]
  split
  · rfl
  refine (List.map_mergeSort fun left _ right _ => ?_).symm
  rw [compareBy_shifted shift hFree hScore]

/- Rows are met in the same order. -/
theorem compareVisits_shifted (left right : JoinedRow) :
    (plan.shifted shift).compareVisits
        (left.shifted shift) (right.shifted shift) =
      plan.compareVisits left right := by
  have hKey (column : ValueColumn) (row : JoinedRow) :=
    (Expr.value keyAlias column).eval_shifted shift nofun row
  have hIds : compare (left.shifted shift).item.valueId
      (right.shifted shift).item.valueId =
        compare left.item.valueId right.item.valueId := by
    simp [JoinedRow.shifted, ItemRow.shifted, compare,
      compareOfLessAndEq]
  simp only [compareVisits, hKey, hIds]
  rfl

theorem firstVisit?_shifted (rows : List JoinedRow) :
    (plan.shifted shift).firstVisit?
        (rows.map (JoinedRow.shifted shift)) =
      (plan.firstVisit? rows).map
        (JoinedRow.shifted shift) := by
  cases rows with
  | nil => rfl
  | cons first rest =>
      simp only [List.map_cons, firstVisit?, Option.map_some]
      refine congrArg some ?_
      induction rest generalizing first with
      | nil => rfl
      | cons next more ih =>
          simp only [List.map_cons, List.foldl_cons,
            compareVisits_shifted]
          split <;> exact ih _

------------------------------------------------------------
-- Running
------------------------------------------------------------

theorem row_shifted
    (hFree : plan.IdFree)
    (row : JoinedRow) :
    (plan.shifted shift).row (row.shifted shift) =
      plan.row row := by
  simp only [Plan.row]
  refine congrArg Row.mk
    (List.map_congr_left fun output hOutput => ?_)
  exact output.1.eval_shifted shift
    (hFree.outputs output hOutput) row

theorem counted_shifted
    (hFree : plan.IdFree)
    (rows : List JoinedRow) :
    (plan.shifted shift).counted
        (rows.map (JoinedRow.shifted shift)) =
      plan.counted rows := by
  simp only [counted, firstVisit?_shifted, List.length_map]
  refine congrArg Row.mk
    (List.map_congr_left fun output hOutput => ?_)
  rw [Option.map_map]
  simp only [Function.comp_def,
    output.1.eval_shifted shift
      (hFree.outputs output hOutput)]

theorem results_shifted
    (hFree : plan.IdFree)
    (rows : List JoinedRow) :
    (plan.shifted shift).results (contents.shifted shift)
        searches (rows.map (JoinedRow.shifted shift)) =
      plan.results contents searches rows := by
  simp only [results, counts_shifted,
    counted_shifted shift hFree,
    sort_shifted shift contents searches hFree,
    show (plan.shifted shift).limit = plan.limit from rfl]
  refine if_congr Iff.rfl rfl ?_
  cases plan.limit <;>
    simp only [← List.map_take, List.map_map,
      Function.comp_def, row_shifted shift hFree]

/- The same plans are refused. -/
theorem prepare_shifted :
    (plan.shifted shift).prepare = plan.prepare := by
  have hAliases : (plan.shifted shift).aliases =
      plan.aliases := by
    simp only [aliases, joins_shifted, List.map_map,
      Function.comp_def, Join.label_shifted]
  have hDepth : (plan.shifted shift).depth = plan.depth := by
    simp only [depth, joins_shifted, List.map_map,
      Function.comp_def, Join.depth_shifted]
    rw [show (plan.shifted shift).filter.depth =
      plan.filter.depth from by
        simp [Filter.depth, Plan.shifted, Filter.shifted]]
  have hTables : (plan.shifted shift).tables =
      plan.tables := by
    simp only [tables, hAliases, joins_shifted,
      List.filter_map, Function.comp_def,
      Join.isAttribute_shifted, isLimited_shifted,
      List.length_map]
  simp only [prepare, hAliases, hDepth, hTables]
  rfl

/- A plan gives the same rows on shifted contents. -/
theorem run_shifted
    (hFree : plan.IdFree) :
    (plan.shifted shift).run (contents.shifted shift) params =
      plan.run contents params := by
  have hNever : (plan.shifted shift).filter.isNever =
      plan.filter.isNever := by
    simp only [Filter.isNever, Plan.shifted, Filter.shifted,
      Option.isNone_map]
    rfl
  have hResults (rows : List JoinedRow) :=
    results_shifted shift contents
      (plan.filter.searches params) hFree rows
  simp only [run, prepare_shifted, hNever,
    matching_shifted shift contents params _ hFree,
    show (plan.shifted shift).filter.searches params =
      plan.filter.searches params from rfl,
    show (plan.shifted shift).columns = plan.columns from rfl]
  rcases plan.prepare with error | _ <;>
    simp only [bind, Except.bind]
  split
  · have hNone := hResults []
    rw [List.map_nil] at hNone
    simp only [pure, Except.pure, hNone]
  rcases plan.matching contents params
    (plan.filter.searches params) with error | rows
  · rfl
  · simp only [Except.map, pure, Except.pure, hResults]

end Plan

/- The plan of a query and the shifted one, as statements. -/
theorem Statement.twins_select
    {plan : Plan}
    (hFree : plan.IdFree)
    (params : Params) :
    Twins shift (.select plan params)
      (.select (plan.shifted shift) params) id := by
  intro clock contents
  simp only [Statement.run,
    Plan.run_shifted shift contents params hFree]
  rcases plan.run contents params with error | rows <;> rfl

end SparseTables

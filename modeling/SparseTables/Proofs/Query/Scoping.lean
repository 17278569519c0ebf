import SparseTables.Proofs.Plan.Writing
import SparseTables.Proofs.Query.Wiring

/-
  This file shows that the text of every plan refers only to
  aliases that it introduces, and that its joins are those
  that its query needs.

  The joins are read in the order in which they are written,
  and each of them may refer to itself and to earlier ones.

  Main declarations:
    * `Chunk.RefersTo`
    * `Plan.Introduces`
    * `Plan.Scoped`
    * `Plan.Wired.scoped`
    * `Plan.Serves`
    * `Plan.serves_build`
-/

namespace SparseTables

------------------------------------------------------------
-- Mentions
------------------------------------------------------------

/- No text is left twice when repetitions are erased. -/
theorem nodup_eraseDups :
    ∀ texts : List String, texts.eraseDups.Nodup
  | [] => by simp
  | text :: rest => by
      rw [List.eraseDups_cons, List.nodup_cons]
      exact ⟨by simp [List.mem_eraseDups], nodup_eraseDups _⟩
termination_by texts => texts.length
decreasing_by
  exact Nat.lt_succ_of_le (List.length_filter_le _ _)

/- Every mentioned column is mentioned once. -/
theorem Select.nodup_referenced (query : Select) :
    query.referenced.Nodup :=
  nodup_eraseDups _

------------------------------------------------------------
-- References
------------------------------------------------------------

namespace Chunk

/- Does a chunk refer to one of some joins or outputs? -/
@[simp]
def RefersTo (labels outputs : List String) : Chunk → Prop
  | label text => text ∈ labels
  | quoted text => text ∈ outputs
  | _ => True

/- All aliases in a text are those of joins or outputs. -/
def Refers
    (labels outputs : List String)
    (chunks : List Chunk) : Prop :=
  ∀ chunk ∈ chunks, chunk.RefersTo labels outputs

variable {labels outputs : List String}

@[simp]
theorem refers_nil : Refers labels outputs [] := by
  simp [Refers]

@[simp]
theorem refers_cons_iff
    {chunk : Chunk}
    {rest : List Chunk} :
    Refers labels outputs (chunk :: rest) ↔
      chunk.RefersTo labels outputs ∧
        Refers labels outputs rest := by
  simp [Refers]

@[simp]
theorem refers_append_iff
    {first second : List Chunk} :
    Refers labels outputs (first ++ second) ↔
      Refers labels outputs first ∧
        Refers labels outputs second := by
  simp only [Refers, List.forall_mem_append]

/- Separators refer to nothing. -/
theorem refers_between
    (separator : String)
    {parts : List (List Chunk)}
    (hParts : ∀ part ∈ parts, Refers labels outputs part) :
    Refers labels outputs (between separator parts) := by
  intro chunk hChunk
  rcases mem_between hChunk with rfl | ⟨part, hPart, hMem⟩
  · trivial
  · exact hParts part hPart chunk hMem

end Chunk

open Chunk

------------------------------------------------------------
-- Joins and searches
------------------------------------------------------------

/- The attribute that a join is of. -/
def Join.attributeId? : Join → Option Int
  | .attr _ id => some id
  | _ => none

/- A criterion is searched unless it is written as false. -/
theorem Scope.Renders.isSome_searched?
    {scope : Scope}
    {joins : List Join}
    {part : Criterion}
    {made : Predicate}
    (hRenders : scope.Renders joins part made) :
    made.searched?.isSome =
      (Word.sameLetters part.op "matches" &&
        made != .never) := by
  cases hRenders with
  | search hSearch hSource hJoin =>
      simp [Predicate.searched?, hSearch]
  | unsearchable => simp [Predicate.searched?]
  | comparison hSearch =>
      rw [hSearch, Scope.condition]
      split <;> rfl

namespace Plan

------------------------------------------------------------
-- Scopes of texts
------------------------------------------------------------

/- Every join refers to itself and to what was there before. -/
def Introduces (known : List String) : List Join → Prop
  | [] => True
  | join :: rest =>
      Refers (join.label :: known) [] join.chunks ∧
        Introduces (join.label :: known) rest

/-
  Every alias in the text of a plan is that of the items, of
  a join, or of an output.
-/
structure Scoped (plan : Plan) : Prop where
  outputs : ∀ output ∈ plan.outputs,
    Refers plan.aliases plan.columns (outputChunks output)
  joins : Introduces [itemAlias] plan.joins
  conditions :
    Refers plan.aliases [] plan.filter.chunks
  orders :
    Refers plan.aliases plan.columns
      (orderChunks plan.orders)

variable {plan : Plan}

theorem itemAlias_mem_aliases : itemAlias ∈ plan.aliases :=
  List.mem_cons_self

theorem label_mem_aliases
    {join : Join}
    (hJoin : join ∈ plan.joins) :
    join.label ∈ plan.aliases :=
  List.mem_cons_of_mem _ (List.mem_map_of_mem hJoin)

/- An expression refers to the items or to a joined value. -/
theorem refers_of_knows
    {expr : Expr}
    (hKnows : plan.Knows expr)
    (outputs : List String) :
    Refers plan.aliases outputs expr.chunks := by
  cases expr with
  | null => simp [Expr.chunks]
  | countAll => simp [Expr.chunks]
  | item column =>
      simp [Expr.chunks, itemAlias_mem_aliases]
  | value label column =>
      rcases hKnows with ⟨join, hJoin, -, rfl⟩
      simp [Expr.chunks, label_mem_aliases hJoin]

/- Joins are introduced in order if searches have sources. -/
theorem introduces_of_sourced
    {known : List String}
    {joins : List Join}
    (hItems : itemAlias ∈ known)
    (hSourced : Sourced known joins) :
    Introduces known joins := by
  induction joins generalizing known with
  | nil => trivial
  | cons join rest ih =>
      have hItem : itemAlias ∈ join.label :: known :=
        List.mem_cons_of_mem _ hItems
      refine ⟨?_, ih hItem hSourced.2⟩
      cases join with
      | key =>
          have hKey : keyAlias ∈ Join.key.label :: known :=
            List.mem_cons_self
          simp [Join.chunks, hItem, hKey]
      | attr label id =>
          have hLabel :
              label ∈ (Join.attr label id).label :: known :=
            List.mem_cons_self
          simp [Join.chunks, hItem, hLabel]
      | search label source =>
          have hLabel :
              label ∈
                (Join.search label source).label :: known :=
            List.mem_cons_self
          have hSource :
              source ∈
                (Join.search label source).label :: known :=
            List.mem_cons_of_mem _ (hSourced.1 source rfl)
          simp [Join.chunks, hLabel, hSource]

/- The groups of a plan refer to its joins. -/
theorem Wired.refers_group
    (hWired : plan.Wired)
    {group : Combine × List Predicate}
    (hGroup : group ∈ plan.filter.groups) :
    Refers plan.aliases [] (Filter.groupChunks group) := by
  have hParts : ∀ part ∈ group.2,
      Refers plan.aliases [] part.chunks := by
    intro part hPart
    cases part with
    | never => simp [Predicate.chunks]
    | compare left op param =>
        have hLeft := refers_of_knows
          (hWired.comparisons group hGroup _ hPart left rfl) []
        simp [Predicate.chunks, hLeft]
    | «matches» label param =>
        have hLabel : label ∈ plan.aliases :=
          List.mem_cons_of_mem _
            (hWired.searches group hGroup label param hPart)
        simp [Predicate.chunks, hLabel]
  have hBetween := refers_between
    (" " ++ group.1.keyword ++ " ")
    (List.forall_mem_map.2 hParts)
  simp [Filter.groupChunks, hBetween]

theorem Wired.refers_filter (hWired : plan.Wired) :
    Refers plan.aliases [] plan.filter.chunks := by
  refine refers_between _ (List.forall_mem_cons.2
    ⟨?_, List.forall_mem_map.2 fun group hGroup =>
      hWired.refers_group hGroup⟩)
  cases plan.filter.table with
  | none => simp [Filter.tableChunks]
  | some id =>
      simp [Filter.tableChunks, itemAlias_mem_aliases]

/- A plan is scoped if its parts refer to what is there. -/
theorem Wired.scoped
    (hWired : plan.Wired)
    (hOutputs : ∀ output ∈ plan.outputs,
      plan.Knows output.1)
    (hJoins : Sourced [itemAlias] plan.joins)
    (hOrders : ∀ key ∈ plan.orders,
      Refers plan.aliases plan.columns key.chunks) :
    plan.Scoped where
  outputs := by
    intro output hOutput
    have hColumn : output.2 ∈ plan.columns :=
      List.mem_map_of_mem hOutput
    simp [outputChunks, hColumn,
      refers_of_knows (hOutputs output hOutput)]
  joins := introduces_of_sourced List.mem_cons_self hJoins
  conditions := hWired.refers_filter
  orders := by
    generalize plan.orders = orders at hOrders
    unfold orderChunks
    split
    · exact refers_nil
    · rw [refers_cons_iff]
      exact ⟨trivial,
        refers_between _ (List.forall_mem_map.2 hOrders)⟩

------------------------------------------------------------
-- Plans of queries
------------------------------------------------------------

variable {query : Select} {table : Option Table}
variable {known : List (String × Attribute)}

/- A selected column is mentioned. -/
theorem mem_referenced_of_column
    {column : String}
    (hColumn : column ∈ query.columns) :
    column ∈ query.referenced := by
  rw [Select.referenced, List.mem_eraseDups]
  exact List.mem_append_left _ (List.mem_append_left _ hColumn)

/- What an output is computed from is joined. -/
theorem knows_of_output
    {output : Expr × String}
    (hOutput : output ∈
      (build query table known).outputs) :
    (build query table known).Knows output.1 := by
  have hExprs : (build query table known).outputs.map
      Prod.fst =
        query.columns.map (query.scope table known).output :=
    project_map_fst _ _ _
  have hMem := List.mem_map_of_mem (f := Prod.fst) hOutput
  rw [hExprs] at hMem
  rcases List.mem_map.1 hMem with ⟨column, hColumn, hExpr⟩
  rw [← hExpr, Scope.output]
  split
  · trivial
  · cases hLeft : (query.scope table known).expr? column with
    | none => trivial
    | some left =>
        exact knows_of_expr?
          (mem_referenced_of_column hColumn) hLeft

/- Keys and attributes are no searches. -/
theorem searched?_of_value
    {join : Join}
    (hJoin : join ∈ query.keyJoins table ++
      (query.scope table known).bound.map Bound.join) :
    join.searched? = none := by
  rcases List.mem_append.1 hJoin with hKey | hBound
  · unfold Select.keyJoins at hKey
    split at hKey <;> simp_all [Join.searched?]
  · rcases List.mem_map.1 hBound with ⟨bound, -, rfl⟩
    rfl

/- Searches are written behind the values that they are in. -/
theorem sourced_build
    (hKnown : ∀ entry ∈ known, entry.1 ∈ query.referenced) :
    Sourced [itemAlias] (build query table known).joins := by
  rcases build_renders query table known with
    ⟨searches, hJoins, hSearches, -⟩
  have hWired : (build query table known).Wired :=
    wired_build hKnown
  have hSources := hWired.sources
  simp only [hJoins] at hSources ⊢
  rw [sourced_append_iff]
  refine ⟨sourced_of_forall fun join hJoin source hSource => ?_,
    sourced_of_forall fun join hJoin source hSource => ?_⟩
  · rw [searched?_of_value hJoin] at hSource
    cases hSource
  · rcases hSources join (List.mem_append_right _ hJoin)
      source hSource with rfl | ⟨value, hValue, hNone, rfl⟩
    · simp
    · -- what is searched is a value, so it stands before
      rw [hJoins, List.mem_append] at hValue
      rcases hValue with hValue | hSearch
      · exact List.mem_append_left _ (List.mem_reverse.2
          (List.mem_map_of_mem hValue))
      · have hSome := hSearches.searched value hSearch
        rw [hNone] at hSome
        cases hSome

/- Orders refer to outputs, and a rank to a search. -/
theorem refers_of_order
    {key : OrderKey}
    (hKey : key ∈ (build query table known).orders) :
    Refers (build query table known).aliases
      (build query table known).columns key.chunks := by
  by_cases hOrders : query.orders = []
  · have hKeys : (build query table known).orders =
        rankOrders (build query table known).joins :=
      if_pos (by simpa using hOrders)
    rw [hKeys] at hKey
    rcases exists_search_of_rank hKey with
      ⟨label, source, rfl, hJoin⟩
    have hLabel := label_mem_aliases hJoin
    simp_all [OrderKey.chunks, Join.label]
  · rw [build_orders hOrders] at hKey
    rcases List.mem_filterMap.1 hKey with
      ⟨order, -, hLookup⟩
    rcases Option.map_eq_some_iff.1 hLookup with
      ⟨label, hLabel, rfl⟩
    rcases List.lookup_eq_some_iff.1 hLabel with
      ⟨before, after, hZip, -⟩
    have hMem : (order.field, label) ∈ query.columns.zip
        ((build query table known).outputs.map Prod.snd) := by
      rw [hZip]
      simp
    have hColumn : label ∈
        (build query table known).columns :=
      (List.of_mem_zip hMem).2
    simp [OrderKey.chunks, hColumn]

/- The text of a plan refers only to what it introduces. -/
theorem scoped_build
    (hKnown : ∀ entry ∈ known, entry.1 ∈ query.referenced) :
    (build query table known).Scoped :=
  (wired_build hKnown).scoped
    (fun _ hOutput => knows_of_output hOutput)
    (sourced_build hKnown)
    fun _ hKey => refers_of_order hKey

------------------------------------------------------------
-- Joins that are needed
------------------------------------------------------------

/- The conditions of a plan, group by group. -/
def conditions (plan : Plan) : List Predicate :=
  plan.filter.groups.flatMap Prod.snd

/- The attributes that the joins of a plan are of. -/
def attributeIds (plan : Plan) : List Int :=
  plan.joins.filterMap Join.attributeId?

/- The aliases of the searches of a plan, in order. -/
def searchAliases (plan : Plan) : List String :=
  plan.joins.filterMap Join.searchAlias?

/-
  The joins of a plan are those that its query needs: one for
  the key if it is mentioned and the table is known, one for
  each known attribute, and one for each search that is not
  written as false.  Without orders, the first search ranks.
-/
structure Serves
    (plan : Plan)
    (query : Select)
    (tableIsKnown : Bool)
    (attributes : List Attribute) : Prop where
  keys : plan.joins.count .key =
    if tableIsKnown && query.referenced.any Word.isKey then 1
    else 0
  attributes : plan.attributeIds = attributes.map Attribute.id
  criteria : List.Forall₂
    (fun part made => made.searched?.isSome =
      (Word.sameLetters part.op "matches" &&
        made != .never))
    query.criteria plan.conditions
  searches : plan.searchAliases =
    plan.conditions.filterMap Predicate.searched?
  ranks : query.orders = [] →
    plan.orders =
      plan.searchAliases.head?.toList.map OrderKey.rank

/- Groups without criteria add nothing to the criteria. -/
theorem flatMap_criteria (groups : List Group) :
    (groups.filter fun group =>
        !group.criteria.isEmpty).flatMap Group.criteria =
      groups.flatMap Group.criteria := by
  induction groups with
  | nil => rfl
  | cons group rest ih =>
      by_cases hEmpty : group.criteria = []
      · simp [hEmpty, ih]
      · simp [hEmpty, ih]

/- Every criterion of a query is a condition of its plan. -/
theorem conditions_build_render :
    List.Forall₂
      ((query.scope table known).Renders
        (build query table known).joins)
      query.criteria (build query table known).conditions := by
  have hFlat : List.Forall₂
      ((query.scope table known).Renders
        (build query table known).joins)
      ((query.groups.filter fun group =>
        !group.criteria.isEmpty).flatMap Group.criteria)
      (build query table known).conditions :=
    List.rel_flatMap groups_build_renders
      fun _ _ hGroup => hGroup.2
  rwa [flatMap_criteria] at hFlat

/- The values of a plan are joined before its searches. -/
theorem exists_values_searches :
    ∃ values searches,
      (build query table known).joins = values ++ searches ∧
        values = query.keyJoins table ++
          (query.scope table known).bound.map Bound.join ∧
        (∀ join ∈ values, join.searchAlias? = none) ∧
        (∀ join ∈ searches,
          join.searchAlias? = some join.label) ∧
        searches.map Join.label =
          (build query table known).conditions.filterMap
            Predicate.searched? := by
  rcases build_renders query table known with
    ⟨searches, hJoins, hSearches, -⟩
  refine ⟨_, searches, hJoins, rfl, ?_, ?_, hSearches.labels⟩
  · intro join hJoin
    have hNone := searched?_of_value hJoin
    cases join with
    | search => cases hNone
    | _ => rfl
  · intro join hJoin
    have hSome := hSearches.searched join hJoin
    cases join with
    | search => rfl
    | _ => cases hSome

/- The joins of the plan of a query are those it needs. -/
theorem serves_build :
    (build query table known).Serves query table.isSome
      (known.map Prod.snd) := by
  rcases @exists_values_searches query table known with
    ⟨values, searches, hJoins, hValues, hNone, hSome, hLabels⟩
  constructor
  case keys =>
    have hBounds : ((query.scope table known).bound.map
        Bound.join).count .key = 0 :=
      List.count_eq_zero.2 (by simp [Bound.join])
    have hSearches : searches.count .key = 0 :=
      List.count_eq_zero.2 fun hKey => by
        cases hSome .key hKey
    rw [hJoins, hValues, List.count_append,
      List.count_append, hBounds, hSearches, Select.keyJoins]
    split <;> rfl
  case attributes =>
    have hKeys : (query.keyJoins table).filterMap
        Join.attributeId? = [] := by
      unfold Select.keyJoins
      split <;> rfl
    have hSearches :
        searches.filterMap Join.attributeId? = [] := by
      refine List.filterMap_eq_nil_iff.2 fun join hJoin => ?_
      cases join with
      | attr label id => cases hSome _ hJoin
      | _ => rfl
    have hBounds := congrArg
      (List.map fun entry => entry.2.id)
      (joinAttributes_known
        (joinKey query table ⟨.empty, []⟩) known)
    rw [attributeIds, hJoins, hValues, List.filterMap_append,
      List.filterMap_append, hKeys, hSearches]
    simpa [Function.comp_def, Bound.join, Join.attributeId?,
      Select.scope] using hBounds
  case criteria =>
    exact conditions_build_render.imp
      fun _ _ hRenders => hRenders.isSome_searched?
  case searches =>
    have hFirst : values.filterMap Join.searchAlias? = [] :=
      List.filterMap_eq_nil_iff.2 hNone
    rw [searchAliases, hJoins, List.filterMap_append, hFirst,
      List.filterMap_congr hSome, List.nil_append, ← hLabels]
    simp
  case ranks =>
    intro hOrders
    have hKeys : (build query table known).orders =
        rankOrders (build query table known).joins :=
      if_pos (by simpa using hOrders)
    rw [hKeys, rankOrders, searchAliases, List.head?_filterMap]
    cases (build query table known).joins.findSome?
      Join.searchAlias? <;> rfl

end Plan

end SparseTables

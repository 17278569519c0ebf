import Mathlib.Data.List.Forall2
import SparseTables.Proofs.Query.Phrases
import SparseTables.Proofs.Query.Records

/-
  This file shows what plans are made of.

  There is one join for the keys, if these are mentioned, and
  one for each known attribute.  The criteria become
  comparisons of what their columns stand for, and searches,
  each with a join of its own.

  Main declarations:
    * `Select.scope`
    * `Scope.condition`
    * `Plan.joinAttributes_joins`
    * `Plan.build_outputs`
    * `Plan.build_orders`
    * `Scope.Renders`
    * `Plan.Searches`
    * `Plan.GroupRenders`
    * `Plan.build_renders`
-/

namespace SparseTables

------------------------------------------------------------
-- Words
------------------------------------------------------------

/- Only a word with a k can be spelled with the sign. -/
theorem Word.map_small_eq_iff
    {word : List Char}
    (hPlain : 'k' ∉ word)
    (hWord : '\u212A' ∉ word)
    (text : List Char) :
    text.map small = word ↔ text.map Char.toLower = word := by
  have hKelvin : '\u212A'.toLower = '\u212A' := by decide
  induction text generalizing word with
  | nil => simp
  | cons c rest ih =>
      cases word with
      | nil => simp
      | cons d more =>
          rw [List.mem_cons, not_or] at hPlain hWord
          have hTail := ih hPlain.2 hWord.2
          simp only [List.map_cons, List.cons.injEq, hTail]
          refine and_congr_left fun _ => ?_
          unfold small
          by_cases hSign : c = '\u212A'
          · subst hSign
            simp [hKelvin, hPlain.1, hWord.1]
          · simp [hSign]

theorem Word.lower_eq_iff
    {text word : String} :
    lower text = word ↔
      text.toList.map small = word.toList := by
  rw [lower, ← String.toList_inj, String.toList_map]

/- A word in small letters, without the Kelvin sign. -/
theorem Word.sameLetters_iff_lower_eq
    {word : String}
    (hSmall : word.toList.map Char.toLower = word.toList)
    (hPlain : 'k' ∉ word.toList)
    (hWord : '\u212A' ∉ word.toList)
    (text : String) :
    sameLetters text word = true ↔ lower text = word := by
  rw [sameLetters_iff, hSmall, lower_eq_iff]
  exact (map_small_eq_iff hPlain hWord _).symm

theorem Word.isKey_iff (column : String) :
    Word.isKey column = true ↔
      Word.lower column = "value" :=
  sameLetters_iff_lower_eq (by decide) (by decide) (by decide)
    column

/- What is not reserved is no reserved word. -/
theorem Word.lower_ne
    {name word : String}
    (hName : isReserved name = false)
    (hWord : word ∈ reserved) :
    lower name ≠ word := by
  intro hSame
  rw [isReserved, hSame, List.contains_iff_mem.2 hWord]
    at hName
  cases hName

/- The six comparisons are no searches and no patterns. -/
theorem Operator.exists_ofText?
    {text : String}
    (hSix : text ∈ ["=", "<>", ">", ">=", "<", "<="]) :
    Word.sameLetters text "matches" = false ∧
      ∃ op, Operator.ofText? text = some op ∧
        op ≠ .like := by
  simp only [List.mem_cons, List.not_mem_nil, or_false] at hSix
  rcases hSix with
    rfl | rfl | rfl | rfl | rfl | rfl
  · exact ⟨by decide +kernel, .equal, by decide +kernel⟩
  · exact ⟨by decide +kernel, .unequal, by decide +kernel⟩
  · exact ⟨by decide +kernel, .greater, by decide +kernel⟩
  · exact ⟨by decide +kernel, .atLeast, by decide +kernel⟩
  · exact ⟨by decide +kernel, .less, by decide +kernel⟩
  · exact ⟨by decide +kernel, .atMost, by decide +kernel⟩

------------------------------------------------------------
-- Scopes
------------------------------------------------------------

/- The join of an attribute. -/
def Bound.join (bound : Bound) : Join :=
  .attr bound.label bound.known.id

/- What the columns of a query stand for. -/
def Select.scope
    (query : Select)
    (table : Option Table)
    (known : List (String × Attribute)) : Scope where
  table := table
  bound := (Plan.joinAttributes
    (Plan.joinKey query table ⟨.empty, []⟩) known).1

/- The condition for a criterion. -/
def Scope.condition
    (scope : Scope)
    (part : Criterion) : Predicate :=
  match scope.expr? part.name with
  | some left => .compare left part.op part.param
  | none => .never

/- The joins of keys that a query needs. -/
def Select.keyJoins
    (query : Select)
    (table : Option Table) : List Join :=
  if table.isSome && query.referenced.any Word.isKey then
    [.key]
  else
    []

/- A column that is found is among the known ones. -/
theorem Scope.mem_of_find?
    {scope : Scope}
    {column : String}
    {bound : Bound}
    (hFind : scope.find? column = some bound) :
    bound ∈ scope.bound ∧ bound.column = column := by
  have hColumn := List.find?_some hFind
  exact ⟨List.mem_of_find?_eq_some hFind,
    by simpa using hColumn⟩

------------------------------------------------------------
-- Parts of plans
------------------------------------------------------------

namespace Plan

theorem joinKey_joins
    (query : Select)
    (table : Option Table) :
    (joinKey query table ⟨.empty, []⟩).joins =
      query.keyJoins table := by
  unfold joinKey Select.keyJoins
  split
  · rfl
  · rfl

/- Every known attribute is bound, in its order. -/
theorem joinAttributes_known
    (joined : Joined)
    (known : List (String × Attribute)) :
    ((joinAttributes joined known).1.map fun bound =>
      (bound.column, bound.known)) = known := by
  induction known generalizing joined with
  | nil => rfl
  | cons first rest ih =>
      rcases first with ⟨column, row⟩
      simp only [joinAttributes, List.map_cons, ih]

/- Every bound attribute is joined. -/
theorem joinAttributes_joins
    (joined : Joined)
    (known : List (String × Attribute)) :
    (joinAttributes joined known).2.joins =
      joined.joins ++
        (joinAttributes joined known).1.map Bound.join := by
  induction known generalizing joined with
  | nil => simp [joinAttributes]
  | cons first rest ih =>
      rcases first with ⟨column, row⟩
      simp [joinAttributes, ih, Joined.add, Bound.join]

/- The outputs of columns, whatever their aliases. -/
theorem project_map_fst
    (scope : Scope)
    (aliases : Aliases)
    (columns : List String) :
    (project scope aliases columns).map Prod.fst =
      columns.map scope.output := by
  induction columns generalizing aliases with
  | nil => rfl
  | cons first rest ih => simp [project, ih]

------------------------------------------------------------
-- Whole plans
------------------------------------------------------------

variable {query : Select} {table : Option Table}
variable {known : List (String × Attribute)}

theorem build_outputs :
    (build query table known).outputs =
      project (query.scope table known) .empty
        query.columns :=
  rfl

/- A query that orders its rows has no other orders. -/
theorem build_orders (hSome : query.orders ≠ []) :
    (build query table known).orders =
      outputOrders query
        (build query table known).outputs := by
  have hOrders : (build query table known).orders =
      if query.orders.isEmpty then
        rankOrders (build query table known).joins
      else
        outputOrders query
          (build query table known).outputs :=
    rfl
  rw [hOrders, if_neg (by simpa using hSome)]

theorem mem_referenced
    {criterion : Criterion}
    (hMem : criterion ∈ query.criteria) :
    criterion.name ∈ query.referenced := by
  rw [Select.referenced, List.mem_eraseDups]
  exact List.mem_append_left _ (List.mem_append_right _
    (List.mem_map_of_mem hMem))

end Plan

/- The alias of the search that a predicate asks. -/
def Predicate.searched? : Predicate → Option String
  | .matches label _ => some label
  | _ => none

/-
  What a criterion becomes.  A search is joined if its column
  can be searched, and holds of no row if not.
-/
inductive Scope.Renders
    (scope : Scope)
    (joins : List Join)
    (part : Criterion) : Predicate → Prop where
  | search
      {label source : String}
      (hSearch : Word.sameLetters part.op "matches" = true)
      (hSource : scope.source? part.name = some source)
      (hJoin : .search label source ∈ joins) :
      Renders scope joins part (.matches label part.param)
  | unsearchable
      (hSearch : Word.sameLetters part.op "matches" = true)
      (hSource : scope.source? part.name = none) :
      Renders scope joins part .never
  | comparison
      (hSearch : Word.sameLetters part.op "matches" = false) :
      Renders scope joins part (scope.condition part)

theorem Scope.Renders.mono
    {scope : Scope}
    {joins more : List Join}
    {part : Criterion}
    {made : Predicate}
    (hRenders : scope.Renders joins part made)
    (hJoins : joins ⊆ more) :
    scope.Renders more part made := by
  cases hRenders with
  | search hSearch hSource hJoin =>
      exact .search hSearch hSource (hJoins hJoin)
  | unsearchable hSearch hSource =>
      exact .unsearchable hSearch hSource
  | comparison hSearch => exact .comparison hSearch

theorem Scope.isSearch_condition
    (scope : Scope)
    (part : Criterion) :
    (scope.condition part).isSearch = false := by
  unfold condition
  cases scope.expr? part.name <;> rfl

/- What searches is joined. -/
theorem Scope.Renders.of_isSearch
    {scope : Scope}
    {joins : List Join}
    {part : Criterion}
    {made : Predicate}
    (hRenders : scope.Renders joins part made)
    (hMade : made.isSearch = true) :
    ∃ label source,
      made = .matches label part.param ∧
        Word.sameLetters part.op "matches" = true ∧
        scope.source? part.name = some source ∧
        .search label source ∈ joins := by
  cases hRenders with
  | search hSearch hSource hJoin =>
      exact ⟨_, _, rfl, hSearch, hSource, hJoin⟩
  | unsearchable => cases hMade
  | comparison =>
      rw [isSearch_condition] at hMade
      cases hMade

namespace Plan

------------------------------------------------------------
-- Searches
------------------------------------------------------------

/- Joins that are the searches of some predicates. -/
structure Searches
    (made : List Predicate)
    (joins : List Join) : Prop where
  labels : joins.map Join.label =
    made.filterMap Predicate.searched?
  searched : ∀ join ∈ joins, join.searched?.isSome = true

theorem Searches.append
    {left right : List Predicate}
    {first second : List Join}
    (hFirst : Searches left first)
    (hSecond : Searches right second) :
    Searches (left ++ right) (first ++ second) where
  labels := by
    rw [List.map_append, List.filterMap_append,
      hFirst.labels, hSecond.labels]
  searched := by
    intro join hJoin
    rcases List.mem_append.1 hJoin with hJoin | hJoin
    · exact hFirst.searched join hJoin
    · exact hSecond.searched join hJoin

variable {scope : Scope}

theorem predicate_renders
    (scope : Scope)
    (joined : Joined)
    (part : Criterion) :
    ∃ joins,
      (predicate scope joined part).2.joins =
          joined.joins ++ joins ∧
        Searches [(predicate scope joined part).1] joins ∧
        scope.Renders joins part
          (predicate scope joined part).1 := by
  unfold predicate
  by_cases hSearch : Word.sameLetters part.op "matches" = true
  · rw [if_pos hSearch]
    cases hSource : scope.source? part.name with
    | none =>
        exact ⟨[], by simp, ⟨rfl, by simp⟩,
          .unsearchable hSearch hSource⟩
    | some source =>
        refine ⟨[.search _ source], rfl, ⟨rfl, ?_⟩,
          .search hSearch hSource List.mem_cons_self⟩
        intro join hJoin
        rw [List.mem_singleton.1 hJoin]
        rfl
  · rw [if_neg hSearch]
    have hMade : scope.Renders [] part
        (scope.condition part) :=
      .comparison (by simpa using hSearch)
    unfold Scope.condition at hMade
    cases hLeft : scope.expr? part.name with
    | none =>
        rw [hLeft] at hMade
        exact ⟨[], by simp, ⟨rfl, by simp⟩, hMade⟩
    | some left =>
        rw [hLeft] at hMade
        exact ⟨[], by simp, ⟨rfl, by simp⟩, hMade⟩

theorem predicates_render
    (scope : Scope)
    (joined : Joined)
    (parts : List Criterion) :
    ∃ joins,
      (predicates scope joined parts).2.joins =
          joined.joins ++ joins ∧
        Searches (predicates scope joined parts).1 joins ∧
        List.Forall₂ (scope.Renders joins) parts
          (predicates scope joined parts).1 := by
  induction parts generalizing joined with
  | nil =>
      exact ⟨[], by simp [predicates], ⟨rfl, by simp⟩, .nil⟩
  | cons part rest ih =>
      rcases predicate_renders scope joined part with
        ⟨first, hFirst, hOne, hMade⟩
      rcases ih (predicate scope joined part).2 with
        ⟨more, hMore, hRest, hRestMade⟩
      refine ⟨first ++ more, ?_, hOne.append hRest,
        .cons (hMade.mono (List.subset_append_left _ _))
          (hRestMade.imp fun _ _ hMade =>
            hMade.mono (List.subset_append_right _ _))⟩
      rw [← List.append_assoc, ← hFirst]
      exact hMore

/- The groups that have criteria, each as it is rendered. -/
def GroupRenders
    (scope : Scope)
    (joins : List Join)
    (group : Group)
    (made : Combine × List Predicate) : Prop :=
  made.1 = group.combine ∧
    List.Forall₂ (scope.Renders joins) group.criteria made.2

theorem GroupRenders.mono
    {joins more : List Join}
    {group : Group}
    {made : Combine × List Predicate}
    (hRenders : GroupRenders scope joins group made)
    (hJoins : joins ⊆ more) :
    GroupRenders scope more group made :=
  ⟨hRenders.1, hRenders.2.imp fun _ _ hMade =>
    hMade.mono hJoins⟩

theorem groups_render
    (scope : Scope)
    (joined : Joined)
    (groups : List Group) :
    ∃ joins,
      (Plan.groups scope joined groups).2.joins =
          joined.joins ++ joins ∧
        Searches ((Plan.groups scope joined groups).1.flatMap
          Prod.snd) joins ∧
        List.Forall₂ (GroupRenders scope joins)
          (groups.filter fun group =>
            !group.criteria.isEmpty)
          (Plan.groups scope joined groups).1 := by
  induction groups generalizing joined with
  | nil =>
      exact ⟨[], by simp [Plan.groups], ⟨rfl, by simp⟩, .nil⟩
  | cons group rest ih =>
      unfold Plan.groups
      by_cases hEmpty : group.criteria.isEmpty = true
      · simpa [hEmpty] using ih joined
      · rcases predicates_render scope joined group.criteria
          with ⟨first, hFirst, hOne, hMade⟩
        rcases ih (predicates scope joined group.criteria).2
          with ⟨more, hMore, hRest, hRestMade⟩
        rw [List.filter_cons_of_pos (by simpa using hEmpty),
          if_neg hEmpty]
        refine ⟨first ++ more, ?_, ?_, .cons ⟨rfl, ?_⟩
          (hRestMade.imp fun _ _ hMade =>
            hMade.mono (List.subset_append_right _ _))⟩
        · rw [← List.append_assoc, ← hFirst]
          exact hMore
        · rw [List.flatMap_cons]
          exact hOne.append hRest
        · exact hMade.imp fun _ _ hMade =>
            hMade.mono (List.subset_append_left _ _)

------------------------------------------------------------
-- Whole plans
------------------------------------------------------------

/-
  The joins of a plan are those of the key and the attributes
  and then the searches of its predicates; the filter holds
  what the criteria become.
-/
theorem build_renders
    (query : Select)
    (table : Option Table)
    (known : List (String × Attribute)) :
    ∃ searches,
      (build query table known).joins =
          query.keyJoins table ++
            (query.scope table known).bound.map Bound.join ++
            searches ∧
        Searches
          ((build query table known).filter.groups.flatMap
            Prod.snd) searches ∧
        List.Forall₂
          (GroupRenders (query.scope table known) searches)
          (query.groups.filter fun group =>
            !group.criteria.isEmpty)
          (build query table known).filter.groups := by
  rcases groups_render (query.scope table known)
    (joinAttributes (joinKey query table ⟨.empty, []⟩)
      known).2 query.groups with
    ⟨searches, hJoins, hSearches, hMade⟩
  refine ⟨searches, ?_, hSearches, hMade⟩
  rw [joinAttributes_joins, joinKey_joins] at hJoins
  exact hJoins

end Plan

end SparseTables

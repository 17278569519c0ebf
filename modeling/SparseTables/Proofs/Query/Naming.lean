import SparseTables.Proofs.Plan.Aliases
import SparseTables.Proofs.Query.Compiling
import SparseTables.Proofs.Query.Rendering

/-
  This file shows what the aliases in the plan of a query
  refer to.

  Every join takes the next free alias for its base, and so
  does every output, so all aliases of one sort are different
  texts.  If the names in the query agree in their letters,
  the aliases differ by more than letter case, and then each
  of them refers to the one join or output that it was taken
  for.

  Main declarations:
    * `Plan.Joined.Labelled`
    * `Plan.nodup_aliases_build`
    * `Plan.nodup_columns_build`
    * `Select.KeepsCase`
    * `Plan.distinct_build`
    * `Plan.Resolves`
    * `Plan.resolves_build`
-/

namespace SparseTables

------------------------------------------------------------
-- Bases
------------------------------------------------------------

/- The bases that the joins of a query take aliases for. -/
def Select.bases (query : Select) : List String :=
  keyAlias :: query.referenced.flatMap fun column =>
    ["iv" ++ Word.clean column, "fts" ++ Word.clean column]

theorem Select.mem_bases_iff
    {query : Select}
    {base : String} :
    base ∈ query.bases ↔ base = keyAlias ∨
      ∃ column ∈ query.referenced,
        base = "iv" ++ Word.clean column ∨
          base = "fts" ++ Word.clean column := by
  simp [bases]

namespace Plan

------------------------------------------------------------
-- Aliases of joins
------------------------------------------------------------

/- Every join took a new alias for one of some bases. -/
structure Joined.Labelled
    (bases : List String)
    (joined : Joined) : Prop where
  used : joined.joins.map Join.label = joined.aliases.used
  nodup : joined.aliases.used.Nodup
  based : ∀ label ∈ joined.aliases.used,
    ∃ base ∈ bases, Aliases.Numbers base label

namespace Joined.Labelled

variable {bases : List String} {joined : Joined}
variable {scope : Scope}

theorem add
    (hLabelled : joined.Labelled bases)
    {base : String}
    (hBase : base ∈ bases)
    (join : String → Join)
    (hJoin : (join (joined.aliases.free base)).label =
      joined.aliases.free base) :
    (joined.add base join).2.Labelled bases where
  used := by
    simp [Joined.add, Aliases.claim, hLabelled.used, hJoin]
  nodup := by
    simpa [Joined.add, Aliases.claim, List.nodup_append]
      using ⟨hLabelled.nodup, fun label hMem hSame =>
        joined.aliases.free_not_mem base (hSame ▸ hMem)⟩
  based := by
    intro label hMem
    rcases List.mem_append.1 hMem with hMem | hMem
    · exact hLabelled.based label hMem
    · rw [List.mem_singleton.1 hMem]
      exact ⟨base, hBase, joined.aliases.numbers_free base⟩

theorem joinKey
    (query : Select)
    (table : Option Table)
    (hBase : keyAlias ∈ bases) :
    (Plan.joinKey query table ⟨.empty, []⟩).Labelled
      bases := by
  have hEmpty : Labelled bases ⟨.empty, []⟩ :=
    ⟨rfl, List.nodup_nil, by simp [Aliases.empty]⟩
  unfold Plan.joinKey
  split
  · exact hEmpty.add hBase _ rfl
  · exact hEmpty

theorem joinAttributes
    (hLabelled : joined.Labelled bases)
    {known : List (String × Attribute)}
    (hBases : ∀ entry ∈ known,
      "iv" ++ Word.clean entry.1 ∈ bases) :
    (Plan.joinAttributes joined known).2.Labelled bases := by
  induction known generalizing joined with
  | nil => exact hLabelled
  | cons first rest ih =>
      rw [List.forall_mem_cons] at hBases
      exact ih (hLabelled.add hBases.1
        (fun label => .attr label first.2.id) rfl) hBases.2

theorem predicate
    (hLabelled : joined.Labelled bases)
    {part : Criterion}
    (hBase : "fts" ++ Word.clean part.name ∈ bases) :
    (Plan.predicate scope joined part).2.Labelled bases := by
  unfold Plan.predicate
  split
  · split
    · exact hLabelled
    · rename_i source hSource
      exact hLabelled.add hBase
        (fun label => .search label source) rfl
  · split
    · exact hLabelled
    · exact hLabelled

theorem predicates
    (hLabelled : joined.Labelled bases)
    {parts : List Criterion}
    (hBases : ∀ part ∈ parts,
      "fts" ++ Word.clean part.name ∈ bases) :
    (Plan.predicates scope joined parts).2.Labelled
      bases := by
  induction parts generalizing joined with
  | nil => exact hLabelled
  | cons first rest ih =>
      rw [List.forall_mem_cons] at hBases
      exact ih (hLabelled.predicate hBases.1) hBases.2

theorem groups
    (hLabelled : joined.Labelled bases)
    {groups : List Group}
    (hBases : ∀ group ∈ groups, ∀ part ∈ group.criteria,
      "fts" ++ Word.clean part.name ∈ bases) :
    (Plan.groups scope joined groups).2.Labelled bases := by
  induction groups generalizing joined with
  | nil => exact hLabelled
  | cons first rest ih =>
      rw [List.forall_mem_cons] at hBases
      rw [Plan.groups]
      split
      · exact ih hLabelled hBases.2
      · exact ih (hLabelled.predicates hBases.1) hBases.2

end Joined.Labelled

variable {query : Select} {table : Option Table}
variable {known : List (String × Attribute)}

/- All that is joined for a query, with its aliases. -/
def joinedOf
    (query : Select)
    (table : Option Table)
    (known : List (String × Attribute)) : Joined :=
  (groups (query.scope table known)
    (joinAttributes (joinKey query table ⟨.empty, []⟩)
      known).2 query.groups).2

theorem labelled_joinedOf
    (table : Option Table)
    (hKnown : ∀ entry ∈ known, entry.1 ∈ query.referenced) :
    (joinedOf query table known).Labelled query.bases := by
  apply Joined.Labelled.groups
  · apply Joined.Labelled.joinAttributes
    · exact .joinKey query table List.mem_cons_self
    · exact fun entry hEntry => Select.mem_bases_iff.2
        (.inr ⟨entry.1, hKnown entry hEntry, .inl rfl⟩)
  · intro group hGroup part hPart
    have hMem : part ∈ query.criteria :=
      List.mem_flatMap.2 ⟨group, hGroup, hPart⟩
    exact Select.mem_bases_iff.2
      (.inr ⟨part.name, mem_referenced hMem, .inr rfl⟩)

/- The aliases of the joins, each for one of the bases. -/
theorem labels_build
    (table : Option Table)
    (hKnown : ∀ entry ∈ known, entry.1 ∈ query.referenced) :
    ((build query table known).joins.map Join.label).Nodup ∧
      ∀ label ∈ (build query table known).joins.map
          Join.label,
        ∃ base ∈ query.bases, Aliases.Numbers base label := by
  have hLabelled := labelled_joinedOf table hKnown
  have hUsed : (build query table known).joins.map
      Join.label = (joinedOf query table known).aliases.used :=
    hLabelled.used
  rw [hUsed]
  exact ⟨hLabelled.nodup, hLabelled.based⟩

/- The alias of the items is too short for a join. -/
theorem two_le_length
    {label base : String}
    (hBase : base ∈ query.bases)
    (hNumbers : Aliases.Numbers base label) :
    2 ≤ label.toList.length := by
  have hLong : 2 ≤ base.toList.length := by
    rcases Select.mem_bases_iff.1 hBase with
      rfl | ⟨column, -, rfl | rfl⟩
    · decide
    · simp [String.toList_append]
    · simp [String.toList_append]
  rcases hNumbers.exists_digits with ⟨digits, hLabel, -⟩
  rw [hLabel, List.length_append]
  omega

theorem nodup_aliases_build
    (table : Option Table)
    (hKnown : ∀ entry ∈ known, entry.1 ∈ query.referenced) :
    (build query table known).aliases.Nodup := by
  rcases labels_build table hKnown with
    ⟨hNodup, hBased⟩
  rw [aliases, List.nodup_cons]
  refine ⟨fun hMem => ?_, hNodup⟩
  rcases hBased itemAlias hMem with ⟨base, hBase, hNumbers⟩
  have hLong := two_le_length hBase hNumbers
  simp [itemAlias] at hLong

------------------------------------------------------------
-- Aliases of outputs
------------------------------------------------------------

/- Every output takes a new alias for its column. -/
theorem project_labels
    (scope : Scope)
    (aliases : Aliases)
    (columns : List String) :
    ((project scope aliases columns).map Prod.snd).Nodup ∧
      ∀ label ∈ (project scope aliases columns).map Prod.snd,
        label ∉ aliases.used ∧
          ∃ column ∈ columns,
            Aliases.Numbers (Word.clean column) label := by
  induction columns generalizing aliases with
  | nil => simp [project]
  | cons column rest ih =>
      rcases ih (aliases.claim (Word.clean column)).2 with
        ⟨hNodup, hRest⟩
      simp only [project, List.map_cons, List.nodup_cons,
        List.forall_mem_cons]
      refine ⟨⟨fun hMem => ?_, hNodup⟩,
        ⟨aliases.free_not_mem _, column, List.mem_cons_self,
          aliases.numbers_free _⟩, fun label hMem => ?_⟩
      · exact (hRest _ hMem).1
          (List.mem_append_right _ List.mem_cons_self)
      · rcases hRest label hMem with
          ⟨hFree, other, hOther, hNumbers⟩
        exact ⟨fun hUsed => hFree
            (List.mem_append_left _ hUsed),
          other, List.mem_cons_of_mem _ hOther, hNumbers⟩

theorem nodup_columns_build :
    (build query table known).columns.Nodup :=
  (project_labels _ .empty query.columns).1

end Plan

------------------------------------------------------------
-- Letter case
------------------------------------------------------------

/-
  Do the names of a query agree in their letters?  Names that
  are the same but for letter case, as far as they go into
  aliases, are then the same.
-/
def Select.KeepsCase (query : Select) : Prop :=
  ∀ short ∈ query.referenced, ∀ long ∈ query.referenced,
    Aliases.Agree (Word.cleanList short.toList)
      (Word.cleanList long.toList)

instance (query : Select) : Decidable query.KeepsCase :=
  inferInstanceAs (Decidable (∀ short ∈ query.referenced,
    ∀ long ∈ query.referenced, Aliases.Agree _ _))

namespace Aliases.Agree

theorem append_left
    {short long : List Char}
    (before : List Char)
    (hAgree : Agree short long) :
    Agree (before ++ short) (before ++ long) := by
  intro hBegins hDigits
  rw [List.map_append, List.map_append,
    List.prefix_append_right_inj] at hBegins
  rw [List.prefix_append_right_inj]
  apply hAgree hBegins
  rw [List.length_append, List.drop_append,
    List.drop_of_length_le (by omega)] at hDigits
  simpa using hDigits

/- Bases that begin with other letters agree. -/
theorem of_ne
    {c d : Char}
    {short long : List Char}
    (hOther : c.toLower ≠ d.toLower) :
    Agree (c :: short) (d :: long) := by
  intro hBegins
  rw [List.map_cons, List.map_cons,
    List.cons_prefix_cons] at hBegins
  exact absurd hBegins.1 hOther

end Aliases.Agree

namespace Plan

variable {query : Select} {table : Option Table}
variable {known : List (String × Attribute)}

/- The bases agree if the names in the query do. -/
theorem agree_bases
    (hCase : query.KeepsCase)
    {first second : String}
    (hFirst : first ∈ query.bases)
    (hSecond : second ∈ query.bases) :
    Aliases.Agree first.toList second.toList := by
  have hAttribute (column : String) :
      ("iv" ++ Word.clean column).toList =
        ['i', 'v'] ++ Word.cleanList column.toList := by
    simp [Word.clean]
  have hSearch (column : String) :
      ("fts" ++ Word.clean column).toList =
        ['f', 't', 's'] ++ Word.cleanList column.toList := by
    simp [Word.clean]
  have hKey : keyAlias.toList = ['b', 'v'] := rfl
  rcases Select.mem_bases_iff.1 hFirst with
    rfl | ⟨short, hShort, rfl | rfl⟩ <;>
  rcases Select.mem_bases_iff.1 hSecond with
    rfl | ⟨long, hLong, rfl | rfl⟩ <;>
  simp only [hAttribute, hSearch, hKey]
  · exact fun _ _ => List.prefix_rfl
  · exact .of_ne (by decide)
  · exact .of_ne (by decide)
  · exact .of_ne (by decide)
  · exact (hCase short hShort long hLong).append_left _
  · exact .of_ne (by decide)
  · exact .of_ne (by decide)
  · exact .of_ne (by decide)
  · exact (hCase short hShort long hLong).append_left _

/- All aliases differ by more than the case of letters. -/
theorem distinct_build
    (table : Option Table)
    (hKnown : ∀ entry ∈ known, entry.1 ∈ query.referenced)
    (hCase : query.KeepsCase) :
    (build query table known).Distinct where
  aliases := by
    rcases labels_build table hKnown with
      ⟨hNodup, hBased⟩
    rw [Plan.aliases, List.map_cons, List.nodup_cons]
    constructor
    · intro hMem
      rcases List.mem_map.1 hMem with ⟨label, hLabel, hSame⟩
      rcases hBased label hLabel with ⟨base, hBase, hNumbers⟩
      have hLong := two_le_length hBase hNumbers
      have hLength := congrArg (List.length ∘ String.toList)
        hSame
      simp [itemAlias] at hLength
      omega
    · refine hNodup.map_on ?_
      intro left hLeft right hRight hSame
      rcases hBased left hLeft with ⟨first, hFirst, hLeft⟩
      rcases hBased right hRight with
        ⟨second, hSecond, hRight⟩
      exact hLeft.eq_of_agree hRight
        (agree_bases hCase hFirst hSecond)
        (agree_bases hCase hSecond hFirst) hSame
  columns := by
    have hColumns :=
      (project_labels (query.scope table known) .empty
        query.columns).2
    have hReferenced : ∀ column ∈ query.columns,
        column ∈ query.referenced := by
      intro column hColumn
      rw [Select.referenced, List.mem_eraseDups]
      exact List.mem_append_left _
        (List.mem_append_left _ hColumn)
    have hClean (column : String) :
        (Word.clean column).toList =
          Word.cleanList column.toList := by
      simp [Word.clean]
    refine nodup_columns_build.map_on ?_
    intro left hLeft right hRight hSame
    rcases (hColumns left hLeft).2 with
      ⟨first, hFirst, hLeft⟩
    rcases (hColumns right hRight).2 with
      ⟨second, hSecond, hRight⟩
    apply hLeft.eq_of_agree hRight ?_ ?_ hSame
    · rw [hClean, hClean]
      exact hCase first (hReferenced first hFirst)
        second (hReferenced second hSecond)
    · rw [hClean, hClean]
      exact hCase second (hReferenced second hSecond)
        first (hReferenced first hFirst)

------------------------------------------------------------
-- References
------------------------------------------------------------

/- The joins that an alias names; letter case is ignored. -/
def named (plan : Plan) (label : String) : List Join :=
  plan.joins.filter fun join =>
    Word.sameLetters join.label label

/- What a key singles out. -/
theorem filter_eq_singleton
    {α β : Type}
    {rows : List α}
    {key : α → β}
    (hNodup : (rows.map key).Nodup)
    {row : α}
    (hRow : row ∈ rows)
    {fits : α → Bool}
    (hFits : ∀ other,
      fits other = true ↔ key other = key row) :
    rows.filter fits = [row] := by
  induction rows with
  | nil => cases hRow
  | cons first rest ih =>
      rw [List.map_cons, List.nodup_cons] at hNodup
      rcases List.mem_cons.1 hRow with rfl | hRow
      · rw [List.filter_cons_of_pos ((hFits row).2 rfl)]
        congr 1
        rw [List.filter_eq_nil_iff]
        intro other hOther hSame
        exact hNodup.1 (List.mem_map.2
          ⟨other, hOther, (hFits other).1 hSame⟩)
      · have hOther : ¬ fits first = true := by
          intro hSame
          exact hNodup.1 (List.mem_map.2
            ⟨row, hRow, ((hFits first).1 hSame).symm⟩)
        rw [List.filter_cons_of_neg hOther]
        exact ih hNodup.2 hRow

variable {plan : Plan}

/- An alias of a plan names the join that has it. -/
theorem named_eq
    (hDistinct : plan.Distinct)
    {join : Join}
    (hJoin : join ∈ plan.joins) :
    plan.named join.label = [join] := by
  have hNodup := (List.nodup_cons.1 hDistinct.aliases).2
  rw [List.map_map] at hNodup
  exact filter_eq_singleton hNodup hJoin fun other =>
    sameLetters_iff other.label join.label

/- No join has the alias of the items. -/
theorem named_itemAlias (hDistinct : plan.Distinct) :
    plan.named itemAlias = [] := by
  have hOther := (List.nodup_cons.1 hDistinct.aliases).1
  rw [named, List.filter_eq_nil_iff]
  intro join hJoin hSame
  rw [sameLetters_iff] at hSame
  exact hOther (List.mem_map.2 ⟨join.label,
    List.mem_map_of_mem hJoin, hSame⟩)

/-
  Every reference within a plan is to what it is meant for,
  when the columns of the query stand for what a scope says.
-/
structure Resolves
    (plan : Plan)
    (query : Select)
    (scope : Scope) : Prop where
  items : plan.named itemAlias = []
  keys : scope.table.isSome = true →
    query.referenced.any Word.isKey = true →
      plan.named keyAlias = [.key]
  attributes : ∀ bound ∈ scope.bound,
    plan.named bound.label = [bound.join]
  criteria : List.Forall₂
    (GroupRenders scope plan.joins)
    (query.groups.filter fun group =>
      !group.criteria.isEmpty)
    plan.filter.groups
  searches : ∀ label source,
    .search label source ∈ plan.joins →
      plan.named label = [.search label source]
  outputs : plan.outputs.map Prod.fst =
    query.columns.map scope.output
  named : ∀ output ∈ plan.outputs,
    plan.outputNamed? output.2 = some output.1
  orders : query.orders ≠ [] → List.Forall₂
    (fun order key => ∃ label,
      key = .output label order.descending ∧
        plan.outputNamed? label =
          some (scope.output order.field))
    query.orders plan.orders
  ranks : query.orders = [] → ∀ key ∈ plan.orders,
    ∃ label source, key = .rank label ∧
      plan.named label = [.search label source]

theorem orders_build
    (hDistinct : (build query table known).Distinct)
    {orders : List Order}
    (hFields : ∀ order ∈ orders,
      order.field ∈ query.columns) :
    List.Forall₂
      (fun order key => ∃ label,
        key = .output label order.descending ∧
          (build query table known).outputNamed? label =
            some ((query.scope table known).output
              order.field))
      orders
      (outputOrders { query with orders }
        (build query table known).outputs) := by
  induction orders with
  | nil => exact .nil
  | cons order rest ih =>
      rw [List.forall_mem_cons] at hFields
      rcases exists_output hDistinct hFields.1 with
        ⟨label, hLookup, hOutput⟩
      simp only [outputOrders, List.filterMap_cons, hLookup,
        Option.map_some]
      exact .cons ⟨label, rfl, hOutput⟩ (ih hFields.2)

theorem exists_search_of_rank
    {key : OrderKey}
    (hKey : key ∈ rankOrders plan.joins) :
    ∃ label source, key = .rank label ∧
      .search label source ∈ plan.joins := by
  unfold rankOrders at hKey
  split at hKey
  · rename_i label hFirst
    rcases List.exists_of_findSome?_eq_some hFirst with
      ⟨join, hJoin, hLabel⟩
    cases join with
    | search other source =>
        cases hLabel
        exact ⟨_, source, List.mem_singleton.1 hKey, hJoin⟩
    | _ => cases hLabel
  · cases hKey

/- If aliases are distinct, a plan means what it says. -/
theorem resolves_build
    (hDistinct : (build query table known).Distinct)
    (hFields : ∀ order ∈ query.orders,
      order.field ∈ query.columns) :
    (build query table known).Resolves query
      (query.scope table known) := by
  rcases build_renders query table known with
    ⟨searches, hJoins, -, hMade⟩
  have hJoin {join : Join}
      (hMem : join ∈ query.keyJoins table ∨
        join ∈ (query.scope table known).bound.map
          Bound.join) :
      join ∈ (build query table known).joins := by
    rw [hJoins, List.append_assoc, List.mem_append,
      List.mem_append]
    exact hMem.imp_right .inl
  constructor
  case items => exact named_itemAlias hDistinct
  case keys =>
    intro hTable hKey
    have hKeyJoin : Join.key ∈ query.keyJoins table := by
      have hTable : table.isSome = true := hTable
      simp [Select.keyJoins, hTable, hKey]
    exact named_eq hDistinct (hJoin (.inl hKeyJoin))
  case attributes =>
    intro bound hBound
    have hMem : bound.join ∈
        (build query table known).joins :=
      hJoin (.inr (List.mem_map_of_mem hBound))
    exact named_eq hDistinct hMem
  case criteria =>
    refine hMade.imp fun _ _ hRenders => hRenders.mono ?_
    rw [hJoins]
    exact List.subset_append_right _ _
  case searches =>
    intro label source hMem
    exact named_eq hDistinct hMem
  case outputs => exact project_map_fst _ _ _
  case named =>
    exact fun output hOutput =>
      outputNamed?_eq hDistinct hOutput
  case orders =>
    intro hOrders
    have hKeys : (build query table known).orders =
        outputOrders query
          (build query table known).outputs :=
      if_neg (by simpa using hOrders)
    rw [hKeys]
    exact orders_build hDistinct hFields
  case ranks =>
    intro hOrders key hKey
    have hKeys : (build query table known).orders =
        rankOrders (build query table known).joins :=
      if_pos (by simpa using hOrders)
    rw [hKeys] at hKey
    rcases exists_search_of_rank hKey with
      ⟨label, source, hRank, hMem⟩
    exact ⟨label, source, hRank, named_eq hDistinct hMem⟩

end Plan

end SparseTables

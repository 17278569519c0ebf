import SparseTables.Proofs.Query.Answering
import SparseTables.Proofs.Query.Naming
import SparseTables.Session.Read

/-
  This file shows what lookups give: queries for identities by
  keys, or for keys by identities.

  A lookup is a plain query with one comparison and at most
  one join, so it is never refused.  What it is given may be
  of any kind, and takes the kind of the column beside it.

  Main declarations:
    * `Session.IsLookup`
    * `Session.bounded_lookupQuery`
    * `Session.selects_lookupQuery`
    * `Session.select_lookupQuery`
-/

namespace SparseTables

namespace Session

variable {source column known : String} {value : Scalar}
variable {contents : Contents}

------------------------------------------------------------
-- Queries
------------------------------------------------------------

/- Identities are looked up by keys, or keys by identities. -/
inductive IsLookup : String → String → Prop where
  | id : IsLookup "id" "value"
  | key : IsLookup "value" "id"

/- How the columns of a lookup are spelled. -/
theorem IsLookup.words (hLookup : IsLookup column known) :
    Word.isReserved column = true ∧
      Word.isReserved known = true ∧
      Word.sameLetters column "count" = false ∧
      Word.lower known ∈ ["value", "id"] ∧
      Select.paramName ("@" ++ known) = "@" ++ known := by
  cases hLookup <;> decide +kernel

theorem criteria_lookupQuery :
    (lookupQuery source column known value).criteria =
      [⟨known, "=", "@" ++ known⟩] :=
  rfl

theorem referenced_lookupQuery
    (hLookup : IsLookup column known) :
    (lookupQuery source column known value).referenced =
      [column, known] := by
  cases hLookup <;> rfl

/- A lookup in a table with a proper name is accepted. -/
theorem check_lookupQuery
    (value : Scalar)
    (hLookup : IsLookup column known)
    (hWord : Word.isWord source = true) :
    (lookupQuery source column known value).check =
      .ok () := by
  have hSome : source.isEmpty = false := by
    by_contra hEmpty
    rw [Bool.not_eq_false, String.isEmpty_iff] at hEmpty
    rw [hEmpty] at hWord
    revert hWord
    decide
  have hNames : Word.isWord column = true ∧
      Word.isWord known = true ∧
      Word.isParameter ("@" ++ known) = true := by
    cases hLookup <;> decide
  have hEqual : Word.lower "=" = "=" :=
    Word.lower_eq_iff.2 (by decide)
  have hOp : Word.isOperator "=" = true := by
    rw [Word.isOperator, hEqual]
    decide
  have hLimit : Bounds.isSigned64 0 = true := by
    decide
  unfold Select.check
  rw [criteria_lookupQuery]
  simp only [Except.then_eq_ok_iff, Check.that_eq_ok_iff,
    Except.forM_eq_ok_iff, Check.table, Check.column,
    Check.criterion, Check.operator, Check.parameter]
  simp [lookupQuery, Select.on, Select.column, Select.filter,
    Select.addToLast, Select.bind, hSome, hWord, hNames, hOp,
    hLimit]

theorem plain_lookupQuery
    (source : String)
    (value : Scalar)
    (hLookup : IsLookup column known) :
    (lookupQuery source column known value).Plain := by
  rcases hLookup.words with ⟨-, -, hColumn, hKnown, -⟩
  constructor
  · rw [criteria_lookupQuery, List.forall_mem_singleton]
    exact List.mem_cons_self
  · rw [criteria_lookupQuery, List.forall_mem_singleton]
    exact Or.inr hKnown
  · change ∀ name ∈ [column],
      Word.sameLetters name "count" = false
    rw [List.forall_mem_singleton]
    exact hColumn

------------------------------------------------------------
-- Plans
------------------------------------------------------------

/- Keys and identities are no attributes. -/
theorem planOf_lookupQuery
    (hLookup : IsLookup column known) :
    contents.planOf (lookupQuery source column known value) =
      Plan.build (lookupQuery source column known value)
        (contents.tableNamed? source) [] := by
  rcases hLookup.words with ⟨hColumn, hKnown, -⟩
  have hNone (row : Table) :
      contents.knownOf row [column, known] = [] := by
    simp [Contents.knownOf, hColumn, hKnown]
  have hSource :
      (lookupQuery source column known value).source =
        source :=
    rfl
  unfold Contents.planOf
  rw [referenced_lookupQuery hLookup, hSource]
  cases contents.tableNamed? source with
  | none => rfl
  | some row => simp only [Option.elim_some, hNone]

/- The aliases of a lookup differ. -/
theorem distinct_lookupQuery
    (hLookup : IsLookup column known) :
    (contents.planOf
      (lookupQuery source column known value)).Distinct := by
  rw [planOf_lookupQuery hLookup]
  refine Plan.distinct_build _ (List.forall_mem_nil _) ?_
  unfold Select.KeepsCase
  rw [referenced_lookupQuery hLookup]
  cases hLookup <;> decide

/- A lookup has one condition, and at most one join. -/
theorem parts_lookupQuery
    (contents : Contents)
    (source : String)
    (value : Scalar)
    (hLookup : IsLookup column known) :
    (contents.planOf
        (lookupQuery source column known
          value)).joins.length ≤ 1 ∧
      ∃ condition,
        (contents.planOf
          (lookupQuery source column known
            value)).filter.groups = [(.all, [condition])] := by
  have hOp : Word.sameLetters "=" "matches" = false :=
    Word.sameLetters_eq_false_iff.2 (by decide)
  have hKeys : ((lookupQuery source column known
      value).keyJoins (contents.tableNamed?
        source)).length ≤ 1 := by
    unfold Select.keyJoins
    split <;> simp
  rw [planOf_lookupQuery hLookup]
  rcases Plan.build_renders
    (lookupQuery source column known value)
    (contents.tableNamed? source) [] with
    ⟨searches, hJoins, hSearches, hGroups⟩
  rw [hJoins]
  generalize (Plan.build
    (lookupQuery source column known value)
    (contents.tableNamed? source) []).filter.groups = groups
    at hSearches hGroups
  rcases List.forall₂_cons_left_iff.1 hGroups with
    ⟨⟨combine, parts⟩, rest, ⟨rfl, hParts⟩, hRest, rfl⟩
  rcases List.forall₂_nil_left_iff.1 hRest with rfl
  rcases List.forall₂_cons_left_iff.1 hParts with
    ⟨condition, rest, hPart, hRest, rfl⟩
  rcases List.forall₂_nil_left_iff.1 hRest with rfl
  refine ⟨?_, condition, rfl⟩
  have hKind : condition.isSearch = false := by
    rw [← Bool.not_eq_true]
    intro hSearch
    rcases hPart.of_isSearch hSearch with
      ⟨-, -, -, hMatches, -⟩
    rw [hOp] at hMatches
    cases hMatches
  have hNone : searches = [] := by
    have hLabels := hSearches.labels
    cases condition with
    | «matches» label param => cases hKind
    | _ => exact List.map_eq_nil_iff.1 hLabels
  have hScope : ((lookupQuery source column known
      value).scope (contents.tableNamed? source)
        []).bound = [] :=
    rfl
  rw [hNone, hScope]
  simpa using hKeys

/-
  A plan with one condition and no more than one join, output
  and order is within the bounds of the store.
-/
theorem bounded_of_single
    {plan : Plan}
    {condition : Predicate}
    (hGroups : plan.filter.groups = [(.all, [condition])])
    (hJoins : plan.joins.length ≤ 1)
    (hOutputs : plan.outputs.length ≤ 1)
    (hOrders : plan.orders.length ≤ 1) :
    plan.Bounded := by
  have hCondition : condition.depth ≤ 3 := by
    cases condition <;> simp [Predicate.depth]
  have hFilter : plan.filter.depth ≤ 4 := by
    rw [Filter.depth, hGroups]
    simp only [List.filterMap_cons, List.map_cons,
      List.map_nil, List.filterMap_nil, chainDepth,
      List.foldl_cons, List.foldl_nil]
    split <;> omega
  have hCount := List.length_filter_le (fun join =>
    join.isAttribute && plan.isLimited join) plan.joins
  constructor
  case depth =>
    unfold Plan.depth chainDepth Plan.mostDepth
    match hParts : plan.joins with
    | [] =>
        simp only [List.map_nil, List.foldl_nil]
        omega
    | [join] =>
        have hJoin : join.depth ≤ 4 := by
          cases join <;> simp [Join.depth]
        simp only [List.map_cons, List.map_nil,
          List.foldl_cons, List.foldl_nil]
        omega
    | _ :: _ :: _ =>
        rw [hParts] at hJoins
        simp at hJoins
  case columns =>
    unfold Plan.mostColumns
    omega
  case orders =>
    unfold Plan.mostColumns
    omega
  case tables =>
    unfold Plan.tables Plan.aliases Plan.mostTables
    rw [List.length_cons, List.length_map]
    omega

/- A lookup is within the bounds of the store. -/
theorem bounded_lookupQuery
    (hLookup : IsLookup column known) :
    (contents.planOf
      (lookupQuery source column known value)).Bounded := by
  rcases parts_lookupQuery contents source value hLookup with
    ⟨hJoins, condition, hGroups⟩
  have hOrders : (Plan.rankOrders (contents.planOf
      (lookupQuery source column known
        value)).joins).length ≤ 1 := by
    unfold Plan.rankOrders
    split <;> simp
  exact bounded_of_single hGroups hJoins (Nat.le_refl 1)
    hOrders

------------------------------------------------------------
-- Answers
------------------------------------------------------------

/- The parameter of a lookup is what it is given. -/
theorem argument_lookupQuery
    (hLookup : IsLookup column known)
    (hStorable : value.isStorable = true) :
    (lookupQuery source column known value).argument
      ("@" ++ known) = value.cell := by
  rcases hLookup.words with ⟨-, -, -, -, hParam⟩
  have hParams :
      (lookupQuery source column known value).params =
        NameMap.empty.insert
          (Select.paramName ("@" ++ known)) value :=
    rfl
  rw [Select.argument, hParams, hParam,
    NameMap.get?_insert, if_pos rfl,
    Option.filter_some_pos hStorable]
  rfl

/- A lookup selects what is equal to what it is given. -/
theorem selects_lookupQuery
    {table : Table}
    (hTable : contents.tableNamed? source = some table)
    (hLookup : IsLookup column known)
    (hStorable : value.isStorable = true)
    (record : Record) :
    contents.selects (lookupQuery source column known value)
        record =
      Operator.equal.holdsIn (contents.isTextual table known)
        (record.cell known) value.cell := by
  have hSearch : Criterion.isSearch
      ⟨known, "=", "@" ++ known⟩ = false := by
    change Word.sameLetters "=" "matches" = false
    exact Word.sameLetters_eq_false_iff.2 (by decide)
  have hOp : Operator.ofText? "=" = some .equal := by
    decide +kernel
  have hTexts : contents.hasTexts
      (lookupQuery source column known value) table
        record = true := by
    unfold Contents.hasTexts
    rw [criteria_lookupQuery, List.all_cons, hSearch]
    rfl
  have hGroups :
      (lookupQuery source column known value).groups =
        [⟨.all, [⟨known, "=", "@" ++ known⟩]⟩] :=
    rfl
  have hSource :
      (lookupQuery source column known value).source =
        source :=
    rfl
  rw [Contents.selects, hSource, hTable, Option.any_some,
    hTexts, Bool.and_true, Contents.satisfies, hGroups]
  simp [Contents.meetsGroup, Contents.meets, hSearch,
    Contents.compares, hOp,
    argument_lookupQuery hLookup hStorable]

/-
  A lookup is answered: with a cell of a record that it
  selects, or with nothing if there is none.
-/
theorem select_lookupQuery
    (hSound : contents.Sound)
    (hName : Check.dictionary "Table" source = .ok ())
    (hLookup : IsLookup column known)
    (value : Scalar) :
    ∃ answer first,
      contents.select
          (lookupQuery source column known value) =
        .ok answer ∧
      answer.rows.head?.bind firstCell =
        (first.bind fun record =>
          (record.cell column).scalar?) ∧
      (∀ record, first = some record →
        record ∈ contents.records source ∧
          contents.selects
            (lookupQuery source column known value)
              record) ∧
      (first = none → ∀ record ∈ contents.records source,
        contents.selects
          (lookupQuery source column known value)
            record = false) := by
  rw [Check.dictionary, Except.then_eq_ok_iff,
    Check.that_eq_ok_iff, Check.that_eq_ok_iff] at hName
  have hFree : Word.isReserved source = false := by
    simpa using hName.2
  have hPlain := plain_lookupQuery source value hLookup
  rcases hSound.select_cases
    (check_lookupQuery value hLookup hName.1)
    hFree hPlain.columns (distinct_lookupQuery hLookup)
    (bounded_lookupQuery hLookup) with
    ⟨answer, hAnswer, found, hPerm, -, hRows⟩ |
      ⟨error, -, hRefuses⟩
  · have hMem (record : Record) :
        record ∈ found ↔ record ∈ contents.records source ∧
          contents.selects
            (lookupQuery source column known value)
              record := by
      rw [hPerm.mem_iff, List.mem_filter]
      rfl
    have hShown : answer.rows = found.map fun record =>
        [(record.cell column).scalar?] :=
      hRows
    refine ⟨answer, found.head?, hAnswer, ?_, ?_, ?_⟩
    · rw [hShown, List.head?_map]
      cases found.head? <;> rfl
    · intro record hFirst
      exact (hMem record).1 (List.mem_of_head? hFirst)
    · intro hNone record hRecord
      rw [List.head?_eq_none_iff] at hNone
      rw [← Bool.not_eq_true]
      intro hSelects
      have hFound := (hMem record).2 ⟨hRecord, hSelects⟩
      rw [hNone] at hFound
      cases hFound
  · exact absurd hRefuses
      (Contents.not_refuses_of_operators hPlain.operators)

end Session

end SparseTables

import SparseTables.Proofs.Program.Yields
import SparseTables.Proofs.Query.Naming
import SparseTables.Proofs.Session.Selecting

/-
  This file states what callers can rely on about the aliases
  in the plans of their queries, in any state of a store.

  Main declarations:
    * `Session.exists_build_of_compile`
    * `Session.compile_keeps_aliases_apart`
    * `Session.compile_not_always_distinct`
-/

namespace SparseTables

namespace Session

------------------------------------------------------------
-- What is compiled
------------------------------------------------------------

/- The known columns are among those that were asked for. -/
theorem sublist_knownAmong
    {policies : Policies}
    {table : Table}
    {columns : List String}
    {known : List (String × Attribute)}
    (hYields : (knownAmong policies table columns).Yields
      (.ok known)) :
    (known.map Prod.fst).Sublist columns := by
  induction columns generalizing known with
  | nil =>
      cases Program.Yields.of_done hYields
      exact .slnil
  | cons column rest ih =>
      unfold knownAmong at hYields
      split at hYields
      · exact (ih hYields).cons column
      · rcases hYields.of_bind with ⟨found, -, hYields⟩
        rcases hYields.of_bind with ⟨more, hMore, hYields⟩
        cases Program.Yields.of_done hYields
        rw [List.map_append]
        cases found with
        | none => exact (ih hMore).cons column
        | some row => exact (ih hMore).cons_cons column

/- A plan is built for what the store knows of a query. -/
theorem exists_build_of_compile
    {policies : Policies}
    {query : Select}
    {plan : Plan}
    {params : Params}
    (hYields : (compile policies query).Yields
      (.ok (plan, params))) :
    query.check = .ok () ∧ ∃ table known,
      (known.map Prod.fst).Sublist query.referenced ∧
        plan = Plan.build query table known := by
  unfold compile at hYields
  rcases hYields.of_bind with ⟨⟨⟩, hCheck, hYields⟩
  rcases hYields.of_bind with ⟨table, -, hYields⟩
  refine ⟨(Program.Yields.of_done hCheck).symm, table, ?_⟩
  cases table with
  | none =>
      cases Program.Yields.of_done hYields
      exact ⟨[], List.nil_sublist _, rfl⟩
  | some row =>
      rcases hYields.of_bind with ⟨known, hKnown, hYields⟩
      cases Program.Yields.of_done hYields
      exact ⟨known, sublist_knownAmong hKnown, rfl⟩

/-
  No two joins and no two outputs of a plan have the same
  alias.  If the names in the query agree in their letters,
  the aliases differ by more than letter case, and then every
  reference within the plan is to what it is meant for.
-/
theorem compile_keeps_aliases_apart
    {shared after : Shared}
    (policies : Policies)
    {query : Select}
    {plan : Plan}
    {params : Params}
    (hCompile : (compile policies query).advance shared =
      (.finished (.ok (plan, params)), after)) :
    plan.aliases.Nodup ∧ plan.columns.Nodup ∧
      (query.KeepsCase → plan.Distinct ∧ ∃ table known,
        (known.map Prod.fst).Sublist query.referenced ∧
          plan = Plan.build query table known ∧
          plan.Resolves query (query.scope table known)) := by
  rcases exists_build_of_compile (.of_advance hCompile) with
    ⟨hCheck, table, known, hSublist, rfl⟩
  have hKnown : ∀ entry ∈ known,
      entry.1 ∈ query.referenced :=
    fun entry hEntry =>
      hSublist.subset (List.mem_map_of_mem hEntry)
  refine ⟨Plan.nodup_aliases_build table hKnown,
    Plan.nodup_columns_build, fun hCase => ?_⟩
  have hDistinct := Plan.distinct_build table hKnown hCase
  exact ⟨hDistinct, table, known, hSublist, rfl,
    Plan.resolves_build hDistinct
      (Select.names_of_check hCheck).2.1⟩

/- A new store with an item that has two texts. -/
def withTexts (first second : String) : Shared :=
  ((define default ⟨"t", .text "k",
    [(first, some (.text "x")), (second, some (.text "y"))]⟩
    ).advance Moment.new.shared).2

theorem reachable_withTexts (first second : String) :
    Reachable (withTexts first second) :=
  Reachable.after_call .refl default
    (.define ⟨"t", .text "k", [(first, some (.text "x")),
      (second, some (.text "y"))]⟩)

/- A query that shows and orders by two attributes. -/
def showing (first second : String) : Select where
  columns := [first, second]
  source := "t"
  groups := [⟨.any, [⟨first, "matches", "@q"⟩]⟩]
  orders := [⟨second, true⟩]
  limit := 0
  params := .empty

/- Names that are cleaned to the same text are told apart. -/
theorem compile_keeps_aliases_apart_cleaned :
    ∃ plan params after,
      (compile default (showing "a_b" "ab")).advance
          (withTexts "a_b" "ab") =
        (.finished (.ok (plan, params)), after) ∧
      plan.aliases = ["i", "ivab", "ivab2", "ftsab"] ∧
      plan.columns = ["ab", "ab2"] ∧
      plan.Distinct ∧
      plan.outputNamed? "ab2" =
        some (.value "ivab2" .text) := by
  have hFound : ((compile default
      (showing "a_b" "ab")).advance
        (withTexts "a_b" "ab")).1 =
      .finished (.ok
        ((withTexts "a_b" "ab").contents.planOf
          (showing "a_b" "ab"), .empty)) :=
    Progress.eq_of_result? (by decide +kernel)
  have hCase : (showing "a_b" "ab").KeepsCase := by
    decide +kernel
  rcases hRun : (compile default
      (showing "a_b" "ab")).advance (withTexts "a_b" "ab")
    with ⟨progress, after⟩
  rw [hRun] at hFound
  cases hFound
  rcases (compile_keeps_aliases_apart default hRun).2.2
    hCase with ⟨hDistinct, -⟩
  exact ⟨_, _, after, rfl, by decide +kernel,
    by decide +kernel, hDistinct, by decide +kernel⟩

/-
  Attributes may be the same but for letter case, and then
  so may their aliases be.
-/
theorem compile_not_always_distinct :
    ¬ ∀ (shared after : Shared) (policies : Policies)
        (query : Select) (plan : Plan) (params : Params),
      Reachable shared →
      (compile policies query).advance shared =
        (.finished (.ok (plan, params)), after) →
      plan.Distinct := by
  intro hAll
  have hFound : ((compile default
      (showing "Foo" "foo")).advance
        (withTexts "Foo" "foo")).1 =
      .finished (.ok
        ((withTexts "Foo" "foo").contents.planOf
          (showing "Foo" "foo"), .empty)) :=
    Progress.eq_of_result? (by decide +kernel)
  rcases hRun : (compile default
      (showing "Foo" "foo")).advance (withTexts "Foo" "foo")
    with ⟨progress, after⟩
  rw [hRun] at hFound
  cases hFound
  have hDistinct := (hAll _ after default _ _ _
    (reachable_withTexts "Foo" "foo") hRun).aliases
  have hAliases :
      (((withTexts "Foo" "foo").contents.planOf
        (showing "Foo" "foo")).aliases.map
          (String.map Char.toLower)) =
        ["i", "ivfoo", "ivfoo", "ftsfoo"] := by
    decide +kernel
  rw [hAliases] at hDistinct
  revert hDistinct
  decide

end Session

end SparseTables

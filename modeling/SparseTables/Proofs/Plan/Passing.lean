import SparseTables.Proofs.Loops
import SparseTables.Proofs.Plan.Conditions
import SparseTables.Proofs.Plan.Joining

/-
  This file shows which items any plan finds, searches
  included.

  It does not matter when a condition is tried.  The verdict
  on an item is therefore the same in every order of joins:
  it is found if every search is met and every condition
  holds.

  Main declarations:
    * `Plan.tries`
    * `Plan.met`
    * `Plan.Verdict`
    * `Plan.Wired.verdict_joinOf?`
-/

namespace SparseTables

namespace Plan

variable {plan : Plan} {contents : Contents}
variable {params : Params} {searches : Contents.Searches}
variable {item : ItemRow}

------------------------------------------------------------
-- Conditions
------------------------------------------------------------

/- What trying a condition on an item gives. -/
def tries
    (plan : Plan)
    (contents : Contents)
    (params : Params)
    (item : ItemRow)
    (condition : List Predicate) : Except Error Bool :=
  Predicate.anyHolds params (plan.whole contents item)
    condition

/- A condition can be tried as soon as it is due. -/
theorem Wired.holdsNow_eq
    (hWired : plan.Wired)
    {before after : List String}
    {row : JoinedRow}
    (hRow : plan.Carries contents item after row) :
    plan.filter.holdsNow params before after row =
      (plan.filter.due before after).allM
        (plan.tries contents params item) := by
  have hTry : ∀ condition ∈ plan.filter.due before after,
      Predicate.anyHolds params row condition =
        plan.tries contents params item condition := by
    intro condition hDue
    rcases Filter.mem_due_iff.1 hDue with ⟨hMem, hNeeds, -⟩
    refine Predicate.anyHolds_congr
      fun part hPart left hLeft => ?_
    rcases Filter.exists_group hMem hPart with
      ⟨group, hGroup, hIn⟩
    refine hWired.eval_eq hRow
      (hWired.comparisons group hGroup part hIn left hLeft)
      (List.mem_cons_of_mem _ (hNeeds ?_))
    refine List.mem_filterMap.2 ⟨part, hPart, ?_⟩
    cases part <;> cases hLeft
    rfl
  unfold Filter.holdsNow
  exact Except.allM_congr hTry

------------------------------------------------------------
-- Joins
------------------------------------------------------------

/- Does an item have the text that a search asks for? -/
def met
    (plan : Plan)
    (contents : Contents)
    (searches : Contents.Searches)
    (item : ItemRow) : Join → Bool
  | .search label source =>
      (((plan.whole contents item).valueId? source).bind
        contents.searchRow?).any fun found =>
          match searches.lookup label with
          | some (.ok search) => search.holds found.terms
          | some (.error _) => false
          | none => true
  | _ => true

/- Only the terms of a text count in a search. -/
theorem met_search
    (label source : String) :
    plan.met contents searches item (.search label source) =
      ((((plan.whole contents item).valueId? source).bind
        contents.searchRow?).map SearchRow.terms).any
          fun terms =>
            match searches.lookup label with
            | some (.ok search) => search.holds terms
            | some (.error _) => false
            | none => true := by
  rw [Option.any_map]
  rfl

/-
  The verdict on an item behind some joins that completed
  some conditions.  Whatever it is, there is a reason that
  does not depend on the row.
-/
inductive Verdict
    (plan : Plan)
    (contents : Contents)
    (params : Params)
    (searches : Contents.Searches)
    (item : ItemRow)
    (known : List String)
    (steps : List Join)
    (due : List (List Predicate)) :
    Except Error (Option JoinedRow) → Prop where
  | found
      {row : JoinedRow}
      (hRow : plan.Carries contents item known row)
      (hMet : ∀ join ∈ steps,
        plan.met contents searches item join = true)
      (hHolds : ∀ condition ∈ due,
        plan.tries contents params item condition = .ok true) :
      Verdict plan contents params searches item known
        steps due (.ok (some row))
  | unmet
      {join : Join}
      (hJoin : join ∈ steps)
      (hMet : plan.met contents searches item join = false) :
      Verdict plan contents params searches item known
        steps due (.ok none)
  | fails
      {condition : List Predicate}
      (hDue : condition ∈ due)
      (hFails : plan.tries contents params item condition =
        .ok false) :
      Verdict plan contents params searches item known
        steps due (.ok none)
  | unread
      {join : Join}
      {error : Error}
      (hJoin : join ∈ steps)
      (hSearch : searches.lookup join.label =
        some (.error error)) :
      Verdict plan contents params searches item known
        steps due (.error error)
  | refused
      {condition : List Predicate}
      {error : Error}
      (hDue : condition ∈ due)
      (hRefused : plan.tries contents params item condition =
        .error error) :
      Verdict plan contents params searches item known
        steps due (.error error)

namespace Verdict

variable {known fewer after : List String}
variable {first second : List Join}
variable {due later : List (List Predicate)}
variable {outcome : Except Error (Option JoinedRow)}

/- Only what is joined and completed counts. -/
theorem congr
    (hVerdict : plan.Verdict contents params searches item
      known first due outcome)
    (hSteps : ∀ join, join ∈ first ↔ join ∈ second)
    (hDue : ∀ condition, condition ∈ due ↔
      condition ∈ later)
    (hKnown : ∀ label ∈ fewer, plan.HasValue label →
      label ∈ known) :
    plan.Verdict contents params searches item fewer
      second later outcome := by
  cases hVerdict with
  | found hRow hMet hHolds =>
      exact .found (hRow.mono hKnown)
        (fun join hJoin => hMet join ((hSteps join).2 hJoin))
        fun condition hLater =>
          hHolds condition ((hDue condition).2 hLater)
  | unmet hJoin hMet =>
      exact .unmet ((hSteps _).1 hJoin) hMet
  | fails hMem hFails => exact .fails ((hDue _).1 hMem) hFails
  | unread hJoin hSearch =>
      exact .unread ((hSteps _).1 hJoin) hSearch
  | refused hMem hRefused =>
      exact .refused ((hDue _).1 hMem) hRefused

/- A row that is found goes on to the next joins. -/
theorem bind
    (hFirst : plan.Verdict contents params searches item
      known first due outcome)
    {next : JoinedRow → Except Error (Option JoinedRow)}
    (hNext : ∀ row, plan.Carries contents item known row →
      plan.Verdict contents params searches item after
        second later (next row)) :
    plan.Verdict contents params searches item after
      (first ++ second) (due ++ later)
      (outcome >>= fun found =>
        match found with
        | none => pure none
        | some row => next row) := by
  cases hFirst with
  | found hRow hMet hHolds =>
      rename_i row
      have hLater := hNext row hRow
      change plan.Verdict contents params searches item after
        (first ++ second) (due ++ later) (next row)
      generalize next row = result at hLater
      cases hLater with
      | found hRow hMore hTrue =>
          exact .found hRow
            (fun join hJoin => (List.mem_append.1 hJoin).elim
              (hMet join) (hMore join))
            fun condition hMem => (List.mem_append.1 hMem).elim
              (hHolds condition) (hTrue condition)
      | unmet hJoin hMet =>
          exact .unmet (List.mem_append_right _ hJoin) hMet
      | fails hDue hFails =>
          exact .fails (List.mem_append_right _ hDue) hFails
      | unread hJoin hSearch =>
          exact .unread (List.mem_append_right _ hJoin) hSearch
      | refused hDue hRefused =>
          exact .refused (List.mem_append_right _ hDue) hRefused
  | unmet hJoin hMet =>
      exact .unmet (List.mem_append_left _ hJoin) hMet
  | fails hDue hFails =>
      exact .fails (List.mem_append_left _ hDue) hFails
  | unread hJoin hSearch =>
      exact .unread (List.mem_append_left _ hJoin) hSearch
  | refused hDue hRefused =>
      exact .refused (List.mem_append_left _ hDue) hRefused

/- A row goes on if the conditions that are due hold. -/
theorem guard
    {result : Except Error (Option JoinedRow)}
    (hLater : plan.Verdict contents params searches item
      after second later result) :
    plan.Verdict contents params searches item after second
      (due ++ later)
      (do
        if ← due.allM (plan.tries contents params item) then
          result
        else
          pure none) := by
  cases hAll : due.allM (plan.tries contents params item) with
  | error error =>
      rcases Except.exists_of_allM_eq_error hAll with
        ⟨condition, hDue, hRefused⟩
      exact .refused (List.mem_append_left _ hDue) hRefused
  | ok holds =>
      cases holds with
      | false =>
          rcases Except.exists_of_allM_eq_false hAll with
            ⟨condition, hDue, hFails⟩
          exact .fails (List.mem_append_left _ hDue) hFails
      | true =>
          have hFirst := Except.allM_eq_true_iff.1 hAll
          change plan.Verdict contents params searches item
            after second (due ++ later) result
          cases hLater with
          | found hRow hMet hHolds =>
              exact .found hRow hMet fun condition hMem =>
                (List.mem_append.1 hMem).elim
                  (hFirst condition) (hHolds condition)
          | unmet hJoin hMet => exact .unmet hJoin hMet
          | fails hDue hFails =>
              exact .fails (List.mem_append_right _ hDue)
                hFails
          | unread hJoin hSearch => exact .unread hJoin hSearch
          | refused hDue hRefused =>
              exact .refused (List.mem_append_right _ hDue)
                hRefused

end Verdict

/- A row goes on from a join that is met. -/
theorem Verdict.joined
    {join : Join}
    {row : JoinedRow}
    {known : List String}
    (hRow : plan.Carries contents item known row)
    (hMet : plan.met contents searches item join = true) :
    plan.Verdict contents params searches item known [join]
      [] (.ok (some row)) := by
  refine .found hRow ?_ fun _ hDue => by cases hDue
  intro other hOther
  rwa [List.mem_singleton.1 hOther]

/-
  A search that can be read, or need not be, finds a text
  that it asks for, or no row.
-/
theorem Wired.verdict_search
    (hWired : plan.Wired)
    {known : List String}
    {row : JoinedRow}
    (hRow : plan.Carries contents item known row)
    {label source : String}
    (hJoin : .search label source ∈ plan.joins)
    (hSource : source ∈ itemAlias :: known)
    {wanted : Option Search}
    (hWanted : (searches.lookup label).sequence =
      .ok wanted) :
    plan.Verdict contents params searches item
      (label :: known) [.search label source] []
      (contents.joinOne searches row
        (.search label source)) := by
  have hFind : row.valueId? source =
      (plan.whole contents item).valueId? source :=
    hWired.valueId?_eq hRow
      (hWired.sources _ hJoin source rfl) hSource
  have hMet : plan.met contents searches item
      (.search label source) =
      (((plan.whole contents item).valueId? source).bind
        contents.searchRow?).any fun found =>
          wanted.all fun search =>
            search.holds found.terms := by
    cases hSearch : searches.lookup label with
    | none =>
        rw [hSearch] at hWanted
        cases hWanted
        simp [met, hSearch]
    | some read =>
        rw [hSearch] at hWanted
        cases read with
        | error error => cases hWanted
        | ok search =>
            cases hWanted
            simp [met, hSearch]
  have hMade : contents.joinOne searches row
      (.search label source) =
      .ok ((((plan.whole contents item).valueId?
        source).bind contents.searchRow?).bind
          fun found =>
            if wanted.all fun search =>
                search.holds found.terms then
              some { row with
                searches := row.searches ++ [(label, found)] }
            else
              none) := by
    rw [Option.bind_assoc]
    simp only [Contents.joinOne, hWanted, hFind]
    rfl
  rw [hMade]
  cases hText : ((plan.whole contents item).valueId?
      source).bind contents.searchRow? with
  | none =>
      rw [hText] at hMet
      exact .unmet List.mem_cons_self hMet
  | some found =>
      rw [hText, Option.any_some] at hMet
      rw [Option.bind_some, ← hMet]
      split
      · rename_i hHolds
        exact .joined (hRow.skip hWired hJoin _) hHolds
      · rename_i hFails
        exact .unmet List.mem_cons_self (by simpa using hFails)

/- One join finds a text that is asked for, or no row. -/
theorem Wired.verdict_joinOne
    (hWired : plan.Wired)
    (hKey : (contents.value? item.valueId).isSome)
    {known : List String}
    {row : JoinedRow}
    (hRow : plan.Carries contents item known row)
    {join : Join}
    (hJoin : join ∈ plan.joins)
    (hSource : ∀ source, join.searched? = some source →
      source ∈ itemAlias :: known) :
    plan.Verdict contents params searches item
      (join.label :: known) [join] []
      (contents.joinOne searches row join) := by
  cases join with
  | key =>
      rcases Option.isSome_iff_exists.1 hKey with
        ⟨value, hValue⟩
      have hMade : contents.joinOne searches row .key =
          .ok (some { row with
            values := row.values ++
              [(keyAlias,
                contents.joinedValue item .key)] }) := by
        simp [Contents.joinOne, Contents.joinedValue,
          hRow.same, hValue, pure, Except.pure]
      rw [hMade]
      exact .joined (hRow.push hJoin rfl) rfl
  | attr label id =>
      have hMade : contents.joinOne searches row
          (.attr label id) =
          .ok (some { row with
            values := row.values ++
              [(label, contents.joinedValue item
                (.attr label id))] }) := by
        simp [Contents.joinOne, Contents.joinedValue,
          hRow.same, pure, Except.pure]
      rw [hMade]
      exact .joined (hRow.push hJoin rfl) rfl
  | search label source =>
      cases hWanted : (searches.lookup label).sequence with
      | ok wanted =>
          exact hWired.verdict_search hRow hJoin
            (hSource source rfl) hWanted
      | error error =>
          have hSearch : searches.lookup label =
              some (.error error) := by
            cases hRead : searches.lookup label with
            | none =>
                rw [hRead] at hWanted
                cases hWanted
            | some read =>
                rw [hRead] at hWanted
                cases read <;> cases hWanted
                rfl
          have hMade : contents.joinOne searches row
              (.search label source) = .error error := by
            simp only [Contents.joinOne, hSearch]
            rfl
          rw [hMade]
          exact .unread List.mem_cons_self hSearch

------------------------------------------------------------
-- Joining an item
------------------------------------------------------------

/- The joins of a row are those before it and those added. -/
theorem Wired.verdict_advance
    (hWired : plan.Wired)
    (hKey : (contents.value? item.valueId).isSome)
    {steps : List Join}
    (hSteps : steps ⊆ plan.joins)
    {before : List String}
    (hSourced : Sourced (itemAlias :: before) steps)
    {row : JoinedRow}
    (hRow : plan.Carries contents item before row) :
    plan.Verdict contents params searches item
      ((steps.map Join.label).reverse ++ before) steps
      (plan.filter.due before
        ((steps.map Join.label).reverse ++ before))
      (plan.advance contents params searches steps before
        row) := by
  induction steps generalizing before row with
  | nil =>
      exact .found hRow (fun _ hJoin => by cases hJoin)
        (by simp [Filter.due_self])
  | cons next rest ih =>
      rw [List.cons_subset] at hSteps
      have hLater : Sourced
          (itemAlias :: next.label :: before) rest :=
        hSourced.2.mono (by simp)
      have hEnd : ((next :: rest).map Join.label).reverse ++
          before = (rest.map Join.label).reverse ++
            next.label :: before := by
        simp
      rw [hEnd]
      have hNext : ∀ row, plan.Carries contents item
          (next.label :: before) row →
          plan.Verdict contents params searches item
            ((rest.map Join.label).reverse ++
              next.label :: before) rest
            (plan.filter.due before (next.label :: before) ++
              plan.filter.due (next.label :: before)
                ((rest.map Join.label).reverse ++
                  next.label :: before))
            (do
              if ← plan.filter.holdsNow params before
                  (next.label :: before) row then
                plan.advance contents params searches rest
                  (next.label :: before) row
              else
                pure none) := by
        intro row hRow
        rw [hWired.holdsNow_eq hRow]
        exact (ih hSteps.2 hLater hRow).guard
      exact ((hWired.verdict_joinOne hKey hRow hSteps.1
        hSourced.1).bind hNext).congr (fun _ => Iff.rfl)
          (fun _ => Filter.mem_due_append_iff
            (List.subset_cons_self _ _)
            (List.subset_append_right _ _))
          fun _ hLabel _ => hLabel

/- What a condition speaks of is joined. -/
theorem Wired.mem_aliases_of_source
    (hWired : plan.Wired)
    {condition : List Predicate}
    (hMem : condition ∈ plan.filter.conditions) :
    condition.filterMap Predicate.source? ⊆ plan.aliases := by
  intro source hSource
  rcases List.mem_filterMap.1 hSource with
    ⟨part, hPart, hIs⟩
  rcases Filter.exists_group hMem hPart with
    ⟨group, hGroup, hIn⟩
  cases part with
  | never => cases hIs
  | compare left op param =>
      have hLeft :=
        hWired.comparisons group hGroup _ hIn left rfl
      cases hIs
      cases left with
      | value label column =>
          rcases hLeft with ⟨join, hJoin, -, hSame⟩
          exact List.mem_cons_of_mem _
            (List.mem_map.2 ⟨join, hJoin, hSame⟩)
      | _ => exact List.mem_cons_self
  | «matches» label param =>
      cases hIs
      exact List.mem_cons_of_mem _
        (hWired.searches group hGroup _ param hIn)

/-
  Every condition is due at some time behind the early
  searches, if these complete none and each can hold.
-/
theorem Wired.mem_due_iff
    (hWired : plan.Wired)
    (hNever : ¬ plan.filter.isNever = true)
    {early known : List String}
    (hEarly : plan.filter.due [] early = [])
    (hKnown : plan.aliases ⊆ known)
    {condition : List Predicate} :
    condition ∈ plan.filter.due early known ↔
      condition ∈ plan.filter.conditions := by
  rw [Filter.mem_due_iff]
  refine ⟨fun hDue => hDue.1, fun hMem => ⟨hMem,
    List.Subset.trans (hWired.mem_aliases_of_source hMem)
      hKnown, ?_⟩⟩
  intro hNeeds
  have hNot : condition ∉ plan.filter.due [] early := by
    rw [hEarly]
    exact List.not_mem_nil
  refine hNot (Filter.mem_due_iff.2 ⟨hMem, hNeeds, ?_⟩)
  intro hNone
  rcases Filter.exists_ne_never hNever hMem with
    ⟨part, hPart, hOther⟩
  have hSource : part.source?.isSome := by
    cases part with
    | never => exact absurd rfl hOther
    | _ => rfl
  rcases Option.isSome_iff_exists.1 hSource with
    ⟨source, hIs⟩
  exact List.not_mem_nil
    (hNone (List.mem_filterMap.2 ⟨part, hPart, hIs⟩))

/- The aliases that are joined before the items. -/
def frontAliases (plan : Plan) : List String :=
  plan.beforeItems.map Join.label ++
    plan.early.map Join.label

/- All aliases, the latest first. -/
def lastAliases (plan : Plan) : List String :=
  (plan.afterItems.map Join.label).reverse ++
    itemAlias :: plan.frontAliases

/- What is tied to the items has come early. -/
theorem mem_frontAliases_iff {label : String} :
    label ∈ ((plan.tied itemAlias ++
        plan.beforeItems).map Join.label).reverse ++
          plan.early.map Join.label ↔
      label ∈ plan.frontAliases := by
  have hTied : label ∈ (plan.tied itemAlias).map Join.label →
      label ∈ plan.early.map Join.label := by
    intro hLabel
    rcases List.mem_map.1 hLabel with ⟨join, hJoin, rfl⟩
    exact List.mem_map_of_mem (mem_tied_iff.1 hJoin).1
  simp only [frontAliases, List.map_append,
    List.reverse_append, List.mem_append, List.mem_reverse]
  tauto

/- In the end every alias is joined. -/
theorem Wired.aliases_subset (hWired : plan.Wired) :
    plan.aliases ⊆ plan.lastAliases := by
  intro label hLabel
  simp only [lastAliases, List.mem_append, List.mem_reverse,
    List.mem_cons]
  rcases List.mem_cons.1 hLabel with hLabel | hLabel
  · exact .inr (.inl hLabel)
  · rcases List.mem_map.1 hLabel with ⟨join, hJoin, rfl⟩
    rcases List.mem_append.1
      (hWired.mem_course_iff.2 hJoin) with hFirst | hAfter
    · exact .inr (.inr (mem_frontAliases_iff.1
        (List.mem_append_left _ (List.mem_reverse.2
          (List.mem_map_of_mem hFirst)))))
    · exact .inl (List.mem_map_of_mem hAfter)

/- The early searches have given a row no values. -/
theorem Wired.carries_early (hWired : plan.Wired) :
    plan.Carries contents item (plan.early.map Join.label)
      ⟨item, [], []⟩ := by
  refine ⟨rfl, List.nil_subset _, ?_⟩
  intro label hLabel hValue
  rcases List.mem_map.1 hLabel with ⟨join, hJoin, rfl⟩
  rcases mem_of_mem_early hJoin with ⟨hMem, hKind⟩
  exact absurd hValue
    (hWired.not_hasValue_of_search hMem hKind)

/- The joins before the items. -/
theorem Wired.verdict_front
    (hWired : plan.Wired)
    (hKey : (contents.value? item.valueId).isSome) :
    plan.Verdict contents params searches item
      plan.frontAliases
      (plan.tied itemAlias ++ plan.beforeItems)
      (plan.filter.due (plan.early.map Join.label)
        plan.frontAliases)
      (plan.advance contents params searches
        (plan.tied itemAlias ++ plan.beforeItems)
        (plan.early.map Join.label) ⟨item, [], []⟩) := by
  have hSourced := hWired.sourced_course
  rw [course, sourced_append_iff] at hSourced
  refine (hWired.verdict_advance hKey
    (fun join hJoin => hWired.mem_course_iff.1
      (List.mem_append_left _ hJoin))
    (hSourced.1.mono (by simp)) hWired.carries_early).congr
      (fun _ => Iff.rfl) (fun condition => ?_)
      fun label hLabel _ => mem_frontAliases_iff.2 hLabel
  rw [Filter.due_congr (fun _ => Iff.rfl)
    fun _ => mem_frontAliases_iff]

/- The items and the joins behind them. -/
theorem Wired.verdict_behind
    (hWired : plan.Wired)
    (hKey : (contents.value? item.valueId).isSome)
    {row : JoinedRow}
    (hRow : plan.Carries contents item plan.frontAliases
      row) :
    plan.Verdict contents params searches item
      plan.lastAliases plan.afterItems
      (plan.filter.due plan.frontAliases
          (itemAlias :: plan.frontAliases) ++
        plan.filter.due (itemAlias :: plan.frontAliases)
          plan.lastAliases)
      (do
        if ← plan.filter.holdsNow params plan.frontAliases
            (itemAlias :: plan.frontAliases) row then
          plan.advance contents params searches
            plan.afterItems (itemAlias :: plan.frontAliases)
            row
        else
          pure none) := by
  have hItem : plan.Carries contents item
      (itemAlias :: plan.frontAliases) row :=
    hRow.mono fun label hLabel hValue =>
      (List.mem_cons.1 hLabel).resolve_left fun hSame =>
        hWired.not_hasValue_itemAlias (hSame ▸ hValue)
  have hSourced := hWired.sourced_course
  rw [course, sourced_append_iff] at hSourced
  rw [hWired.holdsNow_eq hItem]
  refine (hWired.verdict_advance hKey
    (fun join hJoin => hWired.mem_course_iff.1
      (List.mem_append_right _ hJoin))
    (hSourced.2.mono ?_) hItem).guard
  intro label hLabel
  rw [List.mem_append, List.mem_singleton] at hLabel
  rcases hLabel with hLabel | rfl
  · exact List.mem_cons_of_mem _ (List.mem_cons_of_mem _
      (mem_frontAliases_iff.1
        (List.mem_append_left _ hLabel)))
  · exact List.mem_cons_self

/-
  An item of the table is found if it meets all searches and
  conditions of the plan.
-/
theorem Wired.verdict_joinOf?
    (hWired : plan.Wired)
    (hKey : (contents.value? item.valueId).isSome)
    (hTable : plan.filter.table = some item.tableId)
    (hNever : ¬ plan.filter.isNever = true)
    (hEarly : plan.filter.due []
      (plan.early.map Join.label) = []) :
    plan.Verdict contents params searches item plan.aliases
      plan.joins plan.filter.conditions
      (plan.joinOf? contents params searches item) := by
  have hFront : plan.early.map Join.label ⊆
      plan.frontAliases :=
    List.subset_append_right _ _
  have hItems : itemAlias :: plan.frontAliases ⊆
      plan.lastAliases :=
    List.subset_append_right _ _
  have hItem := List.subset_cons_self itemAlias
    plan.frontAliases
  unfold joinOf?
  rw [if_neg (not_not.2 hTable)]
  refine ((hWired.verdict_front hKey).bind fun row hRow =>
    hWired.verdict_behind hKey hRow).congr
      (fun join => hWired.mem_course_iff)
      (fun condition => ?_)
      fun label hLabel _ => hWired.aliases_subset hLabel
  rw [← hWired.mem_due_iff hNever hEarly
      hWired.aliases_subset,
    ← Filter.mem_due_append_iff hFront
      (List.Subset.trans hItem hItems),
    List.mem_append, Filter.mem_due_append_iff hItem hItems,
    ← List.mem_append]

end Plan

end SparseTables

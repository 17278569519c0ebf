import SparseTables.Proofs.Session.Outcomes

/-
  This file states what the caches of a session hold after a
  call, at any time in the history of a store and whatever
  goes wrong: rows that are in the store then, and nothing of
  rows that are gone.

  Main declarations:
    * `Keeper.Lacks`
    * `Caches.Forgets`
    * `Caches.Mirrors.forgets`
    * `Session.caches_mirror`
-/

namespace SparseTables

------------------------------------------------------------
-- Rows that are gone
------------------------------------------------------------

/- No entry is of the row with an identity. -/
structure Keeper.Lacks
    {κ ρ : Type}
    [Keyed ρ κ]
    (keeper : Keeper κ ρ)
    (id : Int) : Prop where
  byKey : ∀ entry ∈ keeper.byKey, Keyed.id entry.2 ≠ id
  byId : ∀ entry ∈ keeper.byId, entry.1 ≠ id

/- No pair is of the value with an identity. -/
def ValueKeeper.Lacks
    (keeper : ValueKeeper)
    (id : Int) : Prop :=
  ∀ pair ∈ keeper.pairs, pair.2 ≠ id

/- Nothing is kept of the rows that are gone. -/
structure Caches.Forgets
    (caches : Caches)
    (before after : Contents) : Prop where
  tables : ∀ row ∈ before.tables.rows,
    row ∉ after.tables.rows → caches.tables.Lacks row.id
  attributes : ∀ row ∈ before.attributes.rows,
    row ∉ after.attributes.rows →
      caches.attributes.Lacks row.id
  values : ∀ row ∈ before.values.rows,
    row ∉ after.values.rows → caches.values.Lacks row.id

/-
  The identity of a row that is gone is not given to another,
  so no row has it.
-/
theorem Register.Ages.not_mem_of_gone
    {ρ : Type}
    {id : ρ → Int}
    {before after : Register ρ}
    (hAges : before.Ages id (fun row => row) after)
    (hOrdered : before.Ordered id)
    {row : ρ}
    (hRow : row ∈ before.rows)
    (hGone : row ∉ after.rows)
    {other : ρ}
    (hOther : other ∈ after.rows) :
    id other ≠ id row := by
  intro hId
  have hBound := hOrdered.bounded row hRow
  have hOld := hAges.rows other hOther (hId ▸ hBound)
  rw [List.map_id'] at hOld
  rw [hOrdered.eq_of_id hOld hRow hId] at hOther
  exact hGone hOther

theorem Keeper.Mirrors.lacks
    {κ ρ : Type}
    [Keyed ρ κ]
    {keeper : Keeper κ ρ}
    {rows : List ρ}
    (hMirrors : keeper.Mirrors rows)
    {id : Int}
    (hNone : ∀ row ∈ rows, Keyed.id row ≠ id) :
    keeper.Lacks id where
  byKey entry hEntry :=
    hNone _ (hMirrors.byKey entry hEntry).1
  byId entry hEntry := by
    rcases hMirrors.byId entry hEntry with ⟨hRow, hId⟩
    rw [← hId]
    exact hNone _ hRow

/- What mirrors later contents has forgotten the rest. -/
theorem Caches.Mirrors.forgets
    {caches : Caches}
    {before after : Contents}
    (hMirrors : caches.Mirrors after)
    (hSound : before.Sound)
    (hAges : before.Ages after) :
    caches.Forgets before after where
  tables _ hRow hGone := hMirrors.tables.lacks
    fun _ hOther => hAges.tables.not_mem_of_gone
      hSound.tables hRow hGone hOther
  attributes _ hRow hGone := hMirrors.attributes.lacks
    fun _ hOther => hAges.attributes.not_mem_of_gone
      hSound.attributes hRow hGone hOther
  values _ hRow hGone pair hPair :=
    hAges.values.not_mem_of_gone hSound.values hRow hGone
      (hMirrors.values pair hPair)

namespace Session

------------------------------------------------------------
-- After a call
------------------------------------------------------------

/-
  After a call, however it ends, every row that is kept is a
  row of the store under its own key and identity, every
  scalar that is kept is the content of its value, and
  nothing is kept of a row that is gone.
-/
theorem caches_mirror
    {shared : Shared}
    (hReachable : Reachable shared)
    (policies : Policies)
    (call : Call) :
    ∃ outcome after,
      (call.program policies).advance shared =
          (.finished outcome, after) ∧
        after.caches.Mirrors after.contents ∧
        after.caches.Forgets shared.contents
          after.contents := by
  have hRest := hReachable.atRest
  rcases (hRest.runs policies call).advance with
    ⟨outcome, after, hRun, ⟨-, hAges⟩, hAfter⟩
  exact ⟨outcome, after, hRun, hAfter.mirrors,
    hAfter.mirrors.forgets hRest.sound hAges⟩

/- The next removal of the items of a table fails. -/
def failingPurge : Faults where
  planned :=
    [{ kind := some (.statement .execute)
       text := "DELETE FROM items"
       skip := 0
       times := 1
       late := false
       error := .invariant "failed" }]
  fired := 0

/- A store with an item whose table cannot be dropped. -/
def beforePurge : Shared :=
  withFaults
    ((define default
        ⟨"t", .text "k", [("a", some (.text "x"))]⟩).advance
      Moment.new.shared).2 failingPurge

/-
  A table is dropped, which fails when its attributes are
  gone: nothing is kept of them.
-/
theorem caches_mirror_half_dropped :
    ∃ after,
      (dropTable default "t").advance beforePurge =
        (.finished (.error (.invariant "failed")), after) ∧
      after.contents.attributes.rows = [] ∧
      after.caches.attributes.Lacks 1 ∧
      after.caches.Mirrors after.contents := by
  have hReachable : Reachable beforePurge :=
    (Reachable.after_call .refl default (.define
      ⟨"t", .text "k", [("a", some (.text "x"))]⟩)).tail
      (.setFaults _ _)
  have hFails :
      ((dropTable default "t").advance
        beforePurge).1.error? =
        some (.invariant "failed") ∧
      ((dropTable default "t").advance
        beforePurge).2.contents.attributes.rows = [] ∧
      beforePurge.contents.attributes.rows =
        [⟨1, 1, "a", false⟩] := by
    decide +kernel
  rcases hFails with ⟨hError, hEmpty, hBefore⟩
  rcases caches_mirror hReachable default (.dropTable "t")
    with ⟨outcome, after, hRun, hMirrors, hForgets⟩
  change (dropTable default "t").advance beforePurge = _
    at hRun
  rw [hRun] at hError hEmpty
  have hOutcome :
      Progress.finished outcome =
        .finished (.error (.invariant "failed")) :=
    Progress.eq_of_error? hError
  refine ⟨after, ?_, hEmpty, ?_, hMirrors⟩
  · rw [hRun, hOutcome]
  · exact hForgets.attributes ⟨1, 1, "a", false⟩
      (by simp [hBefore]) (by simp [hEmpty])

end Session

end SparseTables

import SparseTables.Proofs.Session.Histories

/-
  This file states what callers can rely on when they define
  an item, at any time in the history of a store.

  Main declarations:
    * `Session.Reachable.get`
    * `Session.define_reads_back`
    * `Session.define_failure_keeps_items`
-/

namespace SparseTables

/- The contents of the store. -/
def Shared.contents (shared : Shared) : Contents :=
  shared.store.engine.contents

namespace Progress

variable {α : Type} {progress : Progress α}

/- The result of a call that has succeeded. -/
def result? : Progress α → Option α
  | finished (.ok found) => some found
  | _ => none

/- The error of a call that has failed. -/
def error? : Progress α → Option Error
  | finished (.error error) => some error
  | _ => none

theorem eq_of_result?
    {found : α}
    (hResult : progress.result? = some found) :
    progress = .finished (.ok found) := by
  unfold result? at hResult
  split at hResult
  · cases hResult
    rfl
  · cases hResult

theorem eq_of_error?
    {error : Error}
    (hError : progress.error? = some error) :
    progress = .finished (.error error) := by
  unfold error? at hError
  split at hError
  · cases hError
    rfl
  · cases hError

end Progress

namespace Session

------------------------------------------------------------
-- Reading
------------------------------------------------------------

/- No more failures are planned. -/
def calm (shared : Shared) : Shared :=
  withFaults shared .none

theorem atRest_calm
    {shared : Shared}
    (hRest : AtRest shared) :
    AtRest (calm shared) :=
  { hRest with }

/- Without failures a program that reads gives its result. -/
theorem AtRest.reads
    {α : Type}
    {shared : Shared}
    (hRest : AtRest shared)
    {program : Program α}
    {right : Except Error α → Prop}
    (hReads : program.Ensures
      (.free shared.store.clock .none) shared.contents
      shared.caches
      (Program.Reads (.free shared.store.clock .none)
        shared.contents right)) :
    ∃ outcome after,
      program.advance (calm shared) =
          (.finished outcome, after) ∧
        right outcome := by
  have hCalm : (calm shared).store.faults.Within .none := by
    simp [calm, withFaults, Faults.none, Faults.Within]
  rcases (atRest_calm hRest).advance .none hCalm hReads with
    ⟨outcome, after, hRun, -, -, -, -, hRight | hTrouble⟩
  · exact ⟨outcome, after, hRun, hRight⟩
  · exact absurd rfl hTrouble.1

/- A request is answered with what the contents say. -/
theorem AtRest.get
    {shared : Shared}
    (hRest : AtRest shared)
    (policies : Policies)
    (request : GetRequest) :
    ∃ outcome after,
      (Session.get policies request).advance (calm shared) =
          (.finished outcome, after) ∧
        outcome.map GetResponse.normalized =
          shared.contents.respond request :=
  hRest.reads
    (ensures_get rfl hRest.sound hRest.mirrors policies
      request)

/- The attributes under a key that has an item. -/
theorem AtRest.get_item
    {shared : Shared}
    (hRest : AtRest shared)
    (policies : Policies)
    {table : String}
    {key : Scalar}
    (hName : Check.dictionary "Table" table = .ok ())
    (hKey : Check.storable key = .ok ())
    {item : ItemRow}
    (hItem : shared.contents.itemIn? table key = some item) :
    ∃ metadata after,
      (Session.get policies ⟨table, [key]⟩).advance
          (calm shared) =
        (.finished (.ok ⟨[some metadata]⟩), after) ∧
      metadata.normalized =
        shared.contents.metadata item.id := by
  rcases hRest.get policies ⟨table, [key]⟩ with
    ⟨outcome, after, hRun, hRight⟩
  rcases Option.bind_eq_some_iff.1 hItem with
    ⟨row, hRow, hUnder⟩
  have hExpected :
      shared.contents.respond ⟨table, [key]⟩ =
        .ok ⟨[some (shared.contents.metadata item.id)]⟩ := by
    simp [Contents.respond, hName, hRow,
      Contents.respondEach, Contents.lookUp, hKey, hUnder]
    rfl
  rw [hExpected] at hRight
  cases outcome with
  | error error => cases hRight
  | ok response =>
      rcases response with ⟨items⟩
      have hItems := congrArg GetResponse.items
        (Except.ok.inj hRight)
      simp only [GetResponse.normalized] at hItems
      rcases List.map_eq_cons_iff.1 hItems with
        ⟨found, rest, rfl, hFound, hRest⟩
      rcases List.map_eq_nil_iff.1 hRest with rfl
      rcases Option.map_eq_some_iff.1 hFound with
        ⟨metadata, rfl, hMetadata⟩
      exact ⟨metadata, after, hRun, hMetadata⟩

------------------------------------------------------------
-- Success
------------------------------------------------------------

/- Between calls all that happened is committed. -/
theorem AtRest.ages
    {shared : Shared}
    (hRest : AtRest shared)
    {earlier : Moment}
    (hEarlier : Leads .new earlier)
    (hLater : Leads earlier ⟨shared, none⟩) :
    earlier.committed.Ages shared.contents := by
  have hSteady := (Moment.leads_advances
    (Engine.steady_of_free .empty) hEarlier).1
  have hAges := (Moment.leads_advances hSteady hLater).2
  have hLast : shared.store.engine.committed =
      shared.contents := by
    simp [Engine.committed, hRest.free, Shared.contents]
  rwa [hLast] at hAges

/-
  After a successful request the attributes under its key are
  read back as they were with the entries applied, the last
  change of the item is now, and all other items are as they
  were.  A new item has an identity beyond all that were ever
  given out.
-/
theorem define_reads_back
    {shared after : Shared}
    (hReachable : Reachable shared)
    {policies : Policies}
    {request : Define}
    {id : Int}
    (hOk : (define policies request).advance shared =
      (.finished (.ok id), after)) :
    (∀ policies, ∃ metadata final,
      (Session.get policies
          ⟨request.table, [request.key]⟩).advance
        (calm after) =
        (.finished (.ok ⟨[some metadata]⟩), final) ∧
      metadata.normalized =
        ((shared.contents.metadataIn request.table
          request.key).setAll request.entries).normalized) ∧
    shared.contents.Defined after.contents request
      shared.store.clock.cell id ∧
    (shared.contents.itemIn? request.table request.key =
        none →
      ∀ earlier, Leads .new earlier →
        Leads earlier ⟨shared, none⟩ →
          earlier.committed.items.last < id) := by
  have hRest := hReachable.atRest
  rcases hRest.advance .any (fun _ _ => trivial)
    (ensures_define rfl hRest.sound hRest.mirrors policies
    request) with
    ⟨outcome, last, hRun, hFree, hSound, hMirrors, hPost⟩
  rw [hOk] at hRun
  rcases Prod.mk.inj hRun with ⟨hOutcome, rfl⟩
  cases hOutcome
  rcases hPost with ⟨⟨hName, hKey⟩, hDefined⟩
  have hAfter : AtRest after := ⟨hFree, hSound, hMirrors⟩
  rcases hDefined.exists_item with ⟨item, rfl, hItem⟩
  refine ⟨?_, hDefined, ?_⟩
  · intro policies
    rcases hAfter.get_item policies hName hKey hItem with
      ⟨metadata, final, hGet, hMetadata⟩
    exact ⟨metadata, final, hGet,
      hMetadata.trans hDefined.metadata⟩
  · intro hNone earlier hEarlier hLater
    have hAges := hRest.ages hEarlier hLater
    exact Int.lt_of_le_of_lt hAges.items.last
      (hDefined.fresh hNone).1

/- A first item is defined in a new store. -/
theorem define_reads_back_first :
    ∃ after,
      (define default ⟨"t", .text "k",
          [("a", some (.text "x")), ("b", none)]⟩).advance
        Moment.new.shared = (.finished (.ok 1), after) ∧
      Contents.empty.Defined after.contents
        ⟨"t", .text "k",
          [("a", some (.text "x")), ("b", none)]⟩
        Clock.start.cell 1 := by
  have hOk : (define default ⟨"t", .text "k",
        [("a", some (.text "x")), ("b", none)]⟩).advance
      Moment.new.shared = (.finished (.ok 1), _) :=
    Prod.ext (Progress.eq_of_result? (by decide +kernel)) rfl
  have hReachable : Reachable Moment.new.shared := .refl
  exact ⟨_, hOk, (define_reads_back hReachable hOk).2.1⟩

------------------------------------------------------------
-- Failure
------------------------------------------------------------

/-
  A request that fails, whatever the reason, leaves all items
  as they were.  What it may have created has no attributes,
  and no transaction is left open.
-/
theorem define_failure_keeps_items
    {shared after : Shared}
    (hReachable : Reachable shared)
    (hFaults : shared.store.faults.Within .early)
    {policies : Policies}
    {request : Define}
    {error : Error}
    (hError : (define policies request).advance shared =
      (.finished (.error error), after)) :
    (∀ item ∈ shared.contents.items.rows,
      shared.contents.Keeps after.contents item) ∧
    (∀ item ∈ after.contents.items.rows,
      item ∉ shared.contents.items.rows →
        after.contents.metadata item.id = .empty) ∧
    after.store.engine.inTransaction = false ∧
    (Program.transaction (pure ())).advance (calm after) =
      (.finished (.ok ()), calm after) := by
  have hRest := hReachable.atRest
  rcases hRest.advance .early hFaults (ensures_define rfl
    hRest.sound hRest.mirrors policies request) with
    ⟨outcome, last, hRun, hFree, hSound, hMirrors, hPost⟩
  rw [hError] at hRun
  rcases Prod.mk.inj hRun with ⟨hOutcome, rfl⟩
  cases hOutcome
  have hGrows : shared.contents.Grows after.contents :=
    hPost (by simp [Setup.free])
  refine ⟨?_, ?_, ?_, ?_⟩
  · intro item hItem
    exact hRest.sound.keeps_grows hGrows hItem
  · intro item hItem hNew
    rw [hRest.sound.metadata_grows hGrows]
    apply hRest.sound.metadata_of_last_lt
    by_contra hOld
    exact hNew (hGrows.items.mem_of_le hItem
      (Int.not_lt.1 hOld))
  · simp [Engine.inTransaction, hFree]
  · rcases after with
      ⟨⟨⟨contents, hold⟩, clock, faults⟩, caches⟩
    have hHold : hold = none := hFree
    subst hHold
    rfl

/- The next commit fails. -/
def failingCommit : Faults where
  planned :=
    [{ kind := some .commit
       text := ""
       skip := 0
       times := 1
       late := false
       error := .store .noTransaction }]
  fired := 0

/- The commit of a first item fails in a new store. -/
theorem define_failure_keeps_items_first :
    ∃ after,
      (define default
          ⟨"t", .text "k", [("a", some (.text "x"))]⟩).advance
        (withFaults Moment.new.shared failingCommit) =
        (.finished (.error (.store .noTransaction)), after) ∧
      ∀ item ∈ after.contents.items.rows,
        after.contents.metadata item.id = .empty := by
  have hReachable : Reachable
      (withFaults Moment.new.shared failingCommit) :=
    .single (.setFaults _ _)
  have hFaults : failingCommit.Within .early := by
    simp [failingCommit, Faults.Within, PlannedFault.Within]
  have hError : (define default
        ⟨"t", .text "k", [("a", some (.text "x"))]⟩).advance
      (withFaults Moment.new.shared failingCommit) =
      (.finished (.error (.store .noTransaction)), _) :=
    Prod.ext (Progress.eq_of_error? (by decide +kernel)) rfl
  have hKept := (define_failure_keeps_items hReachable hFaults
    hError).2.1
  exact ⟨_, hError, fun item hItem =>
    hKept item hItem List.not_mem_nil⟩

end Session

end SparseTables

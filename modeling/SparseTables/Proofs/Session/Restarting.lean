import SparseTables.Proofs.Contents.Dropping
import SparseTables.Proofs.Program.Wiping
import SparseTables.Proofs.Session.Dropping

/-
  This file states what callers can rely on when a table is
  dropped or the store is reset, and statements fail.

  Both calls make their statements outside of transactions,
  so a failure leaves a part of the work done.  What is left
  is sound, and what the call is to leave in the end is the
  same as before: it can be made again until it succeeds.

  Main declarations:
    * `Session.Removal`
    * `Session.Removal.target`
    * `Session.Removal.passes`
    * `Session.Removal.ensures`
    * `Session.Removal.Retried`
    * `Session.removals_restart`
-/

namespace SparseTables

open Program

------------------------------------------------------------
-- Looking for a table
------------------------------------------------------------

/- A lookup keeps a row in the caches only if it gives it. -/
theorem Tables.ensures_lookup
    {setup : Setup}
    {contents : Contents}
    {caches : Caches}
    (hFree : setup.saved = none)
    (hSound : contents.Sound)
    (policy : Policy)
    (name : String)
    (numeric : Bool) :
    (Tables.resolve policy name .lookup numeric).Ensures setup
      contents caches fun outcome _ kept =>
        kept = caches ∨ ∃ row, outcome = .ok (some row) := by
  have hAttempt (contents : Contents)
      (hSound : contents.Sound) :
      (Tables.findOrAdd name .lookup numeric).Ensures setup
        contents caches fun outcome _ kept =>
          kept = caches ∨ ∃ row, outcome = .ok (some row) := by
    refine ensures_read_bind hFree hSound rfl ?_
      fun _ error => Or.inl rfl
    cases contents.tableNamed? name with
    | none => exact ensures_pure hSound (Or.inl rfl)
    | some row =>
        exact ensures_cached hSound
          (ensures_pure hSound (Or.inr ⟨_, rfl⟩))
  refine ensures_check hSound (fun _ _ => ?_)
    fun _ _ => Or.inl rfl
  apply ensures_caches hSound
  cases caches.tables.get? name with
  | some row => exact ensures_pure hSound (Or.inl rfl)
  | none =>
      refine policy.ensures_run _
        (fun _ kept => kept = caches) ?_ hSound rfl
      rintro contents _ hSound rfl
      refine (hAttempt contents hSound).mono ?_
      rintro (error | found) after kept - - hKept
      · rcases hKept with rfl | ⟨row, hWrong⟩
        · exact ⟨rfl, fun _ => Or.inl rfl⟩
        · cases hWrong
      · exact hKept

namespace Session

------------------------------------------------------------
-- Removals
------------------------------------------------------------

/- The calls that remove step by step. -/
inductive Removal where
  | dropTable (name : String)
  | reset (dictionaries : Bool)

/- The statements that remove a table, in order. -/
def dropping (tableId : Int) : List Statement :=
  [.removeSlotsByAttributes tableId,
    .removeAttributesOf tableId,
    .removeSlotsOf tableId,
    .removeItemsOf tableId,
    .removeOrphans,
    .removeTable tableId]

/- The statements that remove everything, in order. -/
def wiping (dictionaries : Bool) : List Statement :=
  [.removeSlots, .removeItems] ++
    if dictionaries then
      [.removeValues, .removeAttributes, .removeTables]
    else
      []

namespace Removal

def program (policies : Policies) : Removal → Program Unit
  | dropTable name => Session.dropTable policies name
  | reset dictionaries => Session.reset dictionaries

/- What is refused before a statement is made. -/
def check : Removal → Except Error Unit
  | dropTable name => Check.dictionary "Table" name
  | reset _ => .ok ()

/- The part that looks for the table, and may try again. -/
def lookup (policies : Policies) :
    Removal → Program (Option Table)
  | dropTable name => do
      clearCaches
      Tables.resolve policies.rows name .lookup false
  | reset _ => pure none

/- The part that removes. -/
def work : Removal → Option Table → Program Unit
  | dropTable _, none => pure ()
  | dropTable _, some table =>
      (runAll (dropping table.id)).clearing
  | reset dictionaries, _ =>
      (runAll (wiping dictionaries)).clearing

/- What is to be left of the contents. -/
def target (contents : Contents) : Removal → Contents
  | dropTable name =>
      match Check.dictionary "Table" name with
      | .ok () => contents.withoutNamed name
      | .error _ => contents
  | reset dictionaries => contents.wiped dictionaries

/- A removal is a lookup with statements behind it. -/
theorem program_eq
    (policies : Policies)
    (removal : Removal) :
    removal.program policies =
      (removal.lookup policies >>= removal.work) := by
  cases removal with
  | dropTable name =>
      change (clearCaches >>= fun _ => _) = _
      rw [lookup, bind_assoc]
      congr 1
      funext _
      congr 1
      funext found
      cases found with
      | none => rfl
      | some table =>
          have hSame : (do
              Attributes.purge table.id
              Items.purge table.id
              Tables.remove table.id : Program Unit) =
                runAll (dropping table.id) := by
            simp only [Attributes.purge, Items.purge,
              Tables.remove, dropping, runAll, bind_assoc,
              pure_bind]
          exact congrArg Program.clearing hSame
  | reset dictionaries =>
      have hSame : (do
          Items.reset
          if dictionaries then
            Values.reset
            Attributes.reset
            Tables.reset : Program Unit) =
              runAll (wiping dictionaries) := by
        cases dictionaries <;>
          simp [Items.reset, Values.reset, Attributes.reset,
            Tables.reset, wiping, runAll]
      rw [lookup, pure_bind]
      exact congrArg Program.clearing hSame

/- A failure of the part that removes is not hidden. -/
theorem candid_work
    (removal : Removal)
    (found : Option Table) :
    (removal.work found).Candid := by
  cases removal with
  | reset dictionaries =>
      exact candid_clearing (candid_runAll _)
  | dropTable name =>
      cases found with
      | none => exact candid_done _
      | some table => exact candid_clearing (candid_runAll _)

------------------------------------------------------------
-- The way to what is left
------------------------------------------------------------

/-
  Sound contents of which a removal is to leave what it is to
  leave of others.
-/
def Keeps
    (removal : Removal)
    (contents after : Contents) : Prop :=
  after.Sound ∧ removal.target after = removal.target contents

variable {clock : Clock} {contents : Contents}

theorem target_dropTable
    {name : String}
    (hName : Check.dictionary "Table" name = .ok ())
    (contents : Contents) :
    (dropTable name).target contents =
      contents.withoutNamed name := by
  rw [target, hName]

/- What is not of the table may not change. -/
theorem keeps_dropTable
    {name : String}
    (hName : Check.dictionary "Table" name = .ok ())
    {table : Table}
    (hTable : contents.tableNamed? name = some table)
    {after : Contents}
    (hAfter : after.Sound)
    (hSame : after.tables = contents.tables)
    (hRest : after.without table.id =
      contents.without table.id) :
    (dropTable name).Keeps contents after := by
  refine ⟨hAfter, ?_⟩
  have hThere : after.tableNamed? name = some table := by
    rw [← hTable, Contents.tableNamed?, hSame]
    rfl
  rw [target_dropTable hName, target_dropTable hName,
    Contents.withoutNamed, hThere, Contents.withoutNamed,
    hTable]
  exact hRest

/-
  The statements that remove a table do not fail by
  themselves: nothing refers to what each one removes.
-/
theorem passes_dropping
    (hSound : contents.Sound)
    {name : String}
    (hName : Check.dictionary "Table" name = .ok ())
    {table : Table}
    (hTable : contents.tableNamed? name = some table) :
    Statement.Passes clock ((dropTable name).Keeps contents)
      (dropping table.id) contents
      (contents.withoutNamed name) := by
  have hKeeps {after : Contents} :=
    @keeps_dropTable contents name hName table hTable after
  -- what is left after each of the statements
  have hPurged := hSound.purgeAttributes table.id
  have hCleared := hPurged.removeSlots
    (Statement.ownedBy (contents.withoutAttributes table.id)
      table.id)
  have hEmptied := hCleared.removeItems fun row =>
    row.tableId == table.id
  have hSwept : ((contents.withoutAttributes
      table.id).withoutItems table.id).Sound :=
    hEmptied.removeSlots _
  have hFirst :
      (contents.removeSlots (Statement.usesTable contents
        table.id)).2.without table.id =
          contents.without table.id :=
    Contents.without_removeSlots fun _ hSlot hStays =>
      (hSound.not_purged_of_stays hSlot hStays).2
  have hSecond :
      (contents.withoutAttributes table.id).without table.id =
        contents.without table.id :=
    Contents.without_removeAttributes.trans hFirst
  have hThird :=
    (Contents.without_removeSlots fun _ hSlot hStays =>
      (hPurged.not_purged_of_stays hSlot hStays).1).trans
        hSecond
  have hFourth := Contents.without_removeItems.trans hThird
  have hFifth :=
    (Contents.without_removeSlots fun _ _ hStays =>
      Contents.not_isOrphan_of_stays hStays).trans hFourth
  -- nothing refers to the table when it goes
  rcases contents.removeTables_purged table.id with
    ⟨count, hRemove⟩
  rw [← hSound.purged] at hRemove
  have hNamed : contents.withoutNamed name =
      contents.without table.id := by
    rw [Contents.withoutNamed, hTable]
  have hLast : (dropTable name).Keeps contents
      (contents.withoutNamed name) := by
    refine ⟨hNamed ▸ hSwept.removeTables hRemove, ?_⟩
    have hGone := hSound.tableNamed?_withoutNamed name
    rw [target_dropTable hName, target_dropTable hName,
      Contents.withoutNamed, hGone]
  refine .cons (hKeeps hSound rfl rfl) rfl ?_
  refine .cons (hKeeps (hSound.removeSlots _) rfl hFirst)
    rfl ?_
  refine .cons (hKeeps hPurged rfl hSecond) rfl ?_
  refine .cons (hKeeps hCleared rfl hThird) rfl ?_
  refine .cons (hKeeps hEmptied rfl hFourth) rfl ?_
  have hRun : (Statement.removeTable table.id).run clock _ =
      _ := hRemove
  refine .cons (hKeeps hSwept rfl hFifth) hRun ?_
  rw [← hNamed]
  exact .nil hLast

/-
  Nor do the statements that remove everything: slots go
  before items, and these before what they refer to.
-/
theorem passes_wiping
    (hSound : contents.Sound)
    (dictionaries : Bool) :
    Statement.Passes clock ((reset dictionaries).Keeps contents)
      (wiping dictionaries) contents
      (contents.wiped dictionaries) := by
  rcases contents.removeSlots_all with ⟨slots, hSlots⟩
  have hCleared := hSound.removeSlots fun _ => true
  rw [hSlots] at hCleared
  rcases Contents.removeItems_all { contents with slots := [] }
    with ⟨items, hItems⟩
  have hEmptied := hCleared.removeItems fun _ => true
  rw [hItems] at hEmptied
  have hFirst : Statement.Passes clock
      ((reset dictionaries).Keeps contents)
      [.removeSlots, .removeItems] contents
      (contents.wiped false) := by
    refine .cons ⟨hSound, rfl⟩ (congrArg Except.ok hSlots) ?_
    refine .cons ⟨hCleared, by cases dictionaries <;> rfl⟩
      (congrArg Except.ok hItems) ?_
    exact .nil ⟨hEmptied, by cases dictionaries <;> rfl⟩
  cases dictionaries with
  | false => exact hFirst
  | true =>
      refine hFirst.append ?_
      -- nothing refers to what is left
      rcases (contents.wiped false).removeValues_unused rfl
        with ⟨values, hValues⟩
      have hUnvalued := hEmptied.removeValues rfl hValues
      rcases Contents.removeAttributes_all
        { contents.wiped false with
          values := contents.values.wiped } with
        ⟨attributes, hAttributes⟩
      have hUnnamed :=
        (congrArg (fun removed => removed.2.Sound)
          hAttributes).mp
            (hUnvalued.removeAttributes (by rintro _ ⟨⟩))
      rcases Contents.removeTables_unused
        { contents.wiped true with tables := contents.tables }
        rfl rfl with ⟨tables, hTables⟩
      have hLast := hUnnamed.removeTables hTables
      refine .cons ⟨hEmptied, rfl⟩ hValues ?_
      refine .cons ⟨hUnvalued, rfl⟩
        (congrArg Except.ok hAttributes) ?_
      refine .cons ⟨hUnnamed, rfl⟩ hTables ?_
      exact .nil ⟨hLast, rfl⟩

------------------------------------------------------------
-- One call
------------------------------------------------------------

variable {setup : Setup} {caches : Caches}

/-
  Wherever a removal ends, the caches are empty, and what it
  is to leave is the same; that is left if it succeeds.
-/
theorem ensures
    (hFree : setup.saved = none)
    (hSound : contents.Sound)
    (policies : Policies)
    (removal : Removal) :
    (removal.program policies).Ensures setup contents caches
      fun outcome after kept =>
        kept = .empty ∧ removal.Keeps contents after ∧
          (outcome = .ok () →
            after = removal.target contents) := by
  have hWork
      {contents : Contents}
      {caches : Caches}
      {asked : List Statement}
      (hPasses : Statement.Passes setup.clock
        (removal.Keeps contents) asked contents
        (removal.target contents)) :
      (runAll asked).clearing.Ensures setup contents caches
        fun outcome after kept =>
          kept = .empty ∧ removal.Keeps contents after ∧
            (outcome = .ok () →
              after = removal.target contents) :=
    Program.ensures_clearing ((ensures_runAll hFree
      (fun _ hKeeps => hKeeps.1) hPasses).mono
        fun _ _ _ _ _ hPost => hPost.2)
  rw [program_eq]
  cases removal with
  | reset dictionaries =>
      rw [lookup, pure_bind]
      exact hWork (passes_wiping hSound dictionaries)
  | dropTable name =>
      rw [lookup, bind_assoc]
      refine ensures_cached hSound ?_
      refine ((Tables.ensures_resolve hFree hSound
        (.empty contents) policies.rows name .lookup
        false).and (Tables.ensures_lookup hFree hSound
          policies.rows name false)).bind ?_ ?_
      · rintro found after kept hAfter -
          ⟨⟨hSought, -, hName, hFound, -⟩, hKept⟩
        rcases hSought.same (Or.inl rfl) with rfl
        have hNamed : after.tableNamed? name = found := by
          simpa using hFound.symm
        have hTarget : (dropTable name).target after =
            after.withoutNamed name :=
          target_dropTable hName after
        cases found with
        | some table =>
            exact hWork (hTarget ▸ passes_dropping hAfter hName
              hNamed)
        | none =>
            have hEmpty : kept = .empty := by
              rcases hKept with rfl | ⟨row, hWrong⟩
              · rfl
              · cases hWrong
            refine ensures_pure hAfter ⟨hEmpty, ⟨hAfter, rfl⟩,
              fun _ => ?_⟩
            rw [hTarget, Contents.withoutNamed, hNamed]
      · rintro error after kept hAfter - ⟨⟨hSought, -⟩, hKept⟩
        rcases hSought.same (Or.inl rfl) with rfl
        rcases hKept with rfl | ⟨row, hWrong⟩
        · exact ⟨rfl, ⟨hAfter, rfl⟩, by rintro ⟨⟩⟩
        · cases hWrong

/- When nothing fails all of it is done. -/
theorem ends
    (hSound : contents.Sound)
    (policies : Policies)
    (removal : Removal)
    (caches : Caches) :
    (removal.program policies).Ends clock
      (.ofContents contents) caches removal.check
      (.ofContents (removal.target contents)) .empty := by
  cases removal with
  | reset dictionaries =>
      rw [program_eq, lookup, pure_bind]
      exact (ends_runAll
        (passes_wiping hSound dictionaries)).clearing
  | dropTable name =>
      cases hName : Check.dictionary "Table" name with
      | ok _ =>
          rw [check, target, hName]
          exact ends_dropTable hSound policies hName caches
      | error error =>
          rw [check, target, hName]
          refine Ends.bind (ends_cached (ends_done (.ok ()))) ?_
          refine Ends.bind_error ?_
          exact (ends_check hName).bind_error

------------------------------------------------------------
-- Call after call
------------------------------------------------------------

variable {policies : Policies} {removal : Removal}
variable {shared : Shared}

/- A removal leads from what is reached to what is reached. -/
theorem after_call
    (hReachable : Reachable shared)
    (policies : Policies)
    (removal : Removal) :
    Reachable ((removal.program policies).advance shared).2 := by
  cases removal with
  | dropTable name =>
      exact hReachable.after_call policies (.dropTable name)
  | reset dictionaries =>
      exact hReachable.after_call policies (.reset dictionaries)

/-
  A removal fails, and before it is made again the clock may
  be set and failures may be planned.
-/
def Fails
    (policies : Policies)
    (removal : Removal)
    (shared next : Shared) : Prop :=
  ∃ error after clock faults,
    (removal.program policies).advance shared =
        (.finished (.error error), after) ∧
      next = withFaults (withClock after clock) faults

/- It is made until it succeeds, and has only failed so far. -/
def Retried
    (policies : Policies)
    (removal : Removal) : Shared → Shared → Prop :=
  Relation.ReflTransGen (removal.Fails policies)

/- How a removal ends, and what it ensures for the next one. -/
structure Ended
    (policies : Policies)
    (removal : Removal)
    (ideal shared : Shared)
    (outcome : Except Error Unit)
    (after : Shared) : Prop where
  caches : after.caches = .empty
  sound : after.contents.Sound
  -- a failure shows, or a lookup has tried again
  shown : outcome = .ok () → ∃ found mid,
    (removal.lookup policies).advance shared =
        (.finished (.ok found), mid) ∧
      after.store.faults.fired = mid.store.faults.fired
  done : outcome = .ok () →
    after.store.engine = ideal.store.engine
  again : ∃ last,
    (removal.program policies).advance (calm after) =
        (.finished removal.check, last) ∧
      last.store.engine = ideal.store.engine

/- Between calls the store is free. -/
theorem engine_eq
    (hReachable : Reachable shared) :
    shared.store.engine = .ofContents shared.contents := by
  rcases shared with ⟨⟨⟨contents, hold⟩, clock, faults⟩, _⟩
  have hNone : hold = none := hReachable.atRest.free
  rw [hNone]
  rfl

/- What one call does, whatever has been removed before. -/
theorem exists_ended
    (hReachable : Reachable shared)
    (policies : Policies)
    (removal : Removal) :
    ∃ outcome after,
      (removal.program policies).advance shared =
          (.finished outcome, after) ∧
        Reachable after ∧
        removal.target after.contents =
          removal.target shared.contents ∧
        ∀ ideal : Shared,
          ideal.store.engine =
              .ofContents (removal.target shared.contents) →
            removal.Ended policies ideal shared outcome
              after := by
  have hRest := hReachable.atRest
  rcases hRest.advance .any (fun _ _ => trivial)
    (removal.ensures rfl hRest.sound policies) with
    ⟨outcome, after, hRun, -, -, hCaches, ⟨hSound, hTarget⟩,
      hDone⟩
  have hAfter : Reachable after := by
    have hLast := after_call hReachable policies removal
    rwa [hRun] at hLast
  refine ⟨outcome, after, hRun, hAfter, hTarget,
    fun ideal hIdeal => ?_⟩
  constructor
  case caches => exact hCaches
  case sound => exact hSound
  case done =>
    intro hOk
    rw [engine_eq hAfter, hIdeal]
    exact congrArg Engine.ofContents (hDone hOk)
  case shown =>
    rintro rfl
    rw [program_eq] at hRun
    rcases exists_of_advance_andThen hRun with
      ⟨looked, mid, hLookup, hWork⟩
    cases looked with
    | error error => cases hWork
    | ok found =>
        exact ⟨found, mid, hLookup,
          removal.candid_work found mid () after hWork⟩
  case again =>
    rcases hAfter.atRest.ends (removal.ends hSound policies
      after.caches) with ⟨last, hLast, hContents, -⟩
    have hCalm : Reachable (calm after) :=
      hAfter.tail (.setFaults .none after)
    have hReached : Reachable last := by
      have hCalled := after_call hCalm policies removal
      rwa [hLast] at hCalled
    refine ⟨last, hLast, ?_⟩
    rw [engine_eq hReached, hIdeal, hContents]
    exact congrArg Engine.ofContents hTarget

/- What failures leave is as good as what there was. -/
theorem Retried.target
    {next : Shared}
    (hReachable : Reachable shared)
    (hRetried : removal.Retried policies shared next) :
    Reachable next ∧
      removal.target next.contents =
        removal.target shared.contents := by
  induction hRetried with
  | refl => exact ⟨hReachable, rfl⟩
  | tail _ hFails ih =>
      rcases hFails with ⟨error, after, clock, faults, hRun, rfl⟩
      rcases exists_ended ih.1 policies removal with
        ⟨_, _, hSame, hAfter, hTarget, -⟩
      cases hRun.symm.trans hSame
      refine ⟨?_, hTarget.trans ih.2⟩
      exact (hAfter.tail (.setClock clock _)).tail
        (.setFaults faults _)

end Removal

/-
  Let a table be dropped or the store be reset, at any time,
  and let statements fail, before or after they have had an
  effect.  However often the call has failed, the next one
  comes to an end, with empty caches and sound contents; if
  it succeeds, no failure is hidden but those of the lookup,
  and the store is as if nothing had failed.  It does succeed
  when no more failures are planned.
-/
theorem removals_restart
    {shared : Shared}
    (hReachable : Reachable shared)
    (policies : Policies)
    (removal : Removal) :
    ∃ ideal,
      (removal.program policies).advance (calm shared) =
          (.finished removal.check, ideal) ∧
        ∀ next, removal.Retried policies shared next →
          ∃ outcome after,
            (removal.program policies).advance next =
                (.finished outcome, after) ∧
              removal.Ended policies ideal next outcome
                after := by
  have hRest := hReachable.atRest
  rcases hRest.ends (removal.ends hRest.sound policies
    shared.caches) with ⟨ideal, hRun, hContents, -⟩
  have hIdeal : Reachable ideal := by
    have hCalm : Reachable (calm shared) :=
      hReachable.tail (.setFaults .none shared)
    have hCalled := Removal.after_call hCalm policies removal
    rwa [hRun] at hCalled
  refine ⟨ideal, hRun, fun next hRetried => ?_⟩
  rcases hRetried.target hReachable with ⟨hNext, hTarget⟩
  have hEngine : ideal.store.engine =
      .ofContents (removal.target next.contents) := by
    rw [Removal.engine_eq hIdeal, hContents, hTarget]
    rfl
  rcases Removal.exists_ended hNext policies removal with
    ⟨outcome, after, hLast, -, -, hEnded⟩
  exact ⟨outcome, after, hLast, hEnded ideal hEngine⟩

/- The items of a table go, and the answer is lost. -/
def losingItems : Faults where
  planned :=
    [{ kind := some (.statement .execute)
       text := "DELETE FROM items"
       skip := 0
       times := 1
       late := true
       error := .invariant "lost" }]
  fired := 0

/- The table goes with the second call. -/
theorem removals_restart_owned :
    ∃ ideal mid last,
      (dropTable default "t").advance
          (withFaults withOwned losingItems) =
        (.finished (.error (.invariant "lost")), mid) ∧
      mid.contents.items.rows = [] ∧
      mid.contents.tables.rows = [⟨1, "t", false⟩] ∧
      mid.caches = .empty ∧
      (dropTable default "t").advance mid =
        (.finished (.ok ()), last) ∧
      last.store.engine = ideal.store.engine ∧
      (dropTable default "t").advance
          (calm (withFaults withOwned losingItems)) =
        (.finished (.ok ()), ideal) := by
  have hReachable :
      Reachable (withFaults withOwned losingItems) :=
    (Reachable.after_call .refl default (.define
      ⟨"t", .text "k", [("a", some (.text "x"))]⟩)).tail
      (.setFaults _ _)
  have hName : (Removal.dropTable "t").check = .ok () := by
    decide +kernel
  rcases removals_restart hReachable default (.dropTable "t")
    with ⟨ideal, hIdeal, hNext⟩
  rw [hName] at hIdeal
  have hRuns :
      ((dropTable default "t").advance
        (withFaults withOwned losingItems)).1.error? =
        some (.invariant "lost") ∧
      ((dropTable default "t").advance
        (withFaults withOwned
          losingItems)).2.contents.items.rows = [] ∧
      ((dropTable default "t").advance
        (withFaults withOwned
          losingItems)).2.contents.tables.rows =
        [⟨1, "t", false⟩] ∧
      ((dropTable default "t").advance
        ((dropTable default "t").advance
          (withFaults withOwned losingItems)).2).1.result? =
        some () := by
    decide +kernel
  rcases hRuns with ⟨hError, hItems, hTables, hOk⟩
  rcases hNext _ .refl with ⟨outcome, mid, hFirst, hMid⟩
  change (dropTable default "t").advance _ = _ at hFirst
  rw [hFirst] at hError hItems hTables hOk
  cases Progress.eq_of_error? hError
  have hRetried : Removal.Retried default (.dropTable "t")
      (withFaults withOwned losingItems) mid :=
    .single ⟨_, mid, mid.store.clock, mid.store.faults, hFirst,
      rfl⟩
  rcases hNext mid hRetried with
    ⟨outcome, last, hSecond, hLast⟩
  change (dropTable default "t").advance _ = _ at hSecond
  rw [hSecond] at hOk
  cases Progress.eq_of_result? hOk
  exact ⟨ideal, mid, last, hFirst, hItems, hTables, hMid.caches,
    hSecond, hLast.done rfl, hIdeal⟩

end Session

end SparseTables

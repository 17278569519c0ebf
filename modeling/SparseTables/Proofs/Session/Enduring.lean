import SparseTables.Proofs.Program.Enduring
import SparseTables.Proofs.Sessions.Convergence

/-
  This file states what becomes of creations when statements
  fail, with or without effect.

  While an attempt is left the row under the key is found or
  created, and there is no other.  An attempt whose answer
  was lost may have added it; the next one finds it.  When
  all attempts have failed, the last failure is the cause of
  the error, and the caches keep nothing that is not there.

  Main declarations:
    * `Caches.Holds`
    * `Session.Errand.Pending`
    * `Session.Errand.Granted`
    * `Session.Errand.Endures`
    * `Session.creations_endure_failures`
-/

namespace SparseTables

open Program

------------------------------------------------------------
-- What caches hold
------------------------------------------------------------

namespace Caches

/- What is kept under a key. -/
def entry? (caches : Caches) : Key → Option Entry
  | .table name =>
      (caches.tables.get? name).map fun row =>
        ⟨row.id, some row.numeric⟩
  | .column tableId name =>
      (caches.attributes.get? (tableId, name)).map fun row =>
        ⟨row.id, some row.numeric⟩
  | .value content =>
      (caches.values.get? content).map fun id => ⟨id, none⟩
  | .item _ _ => none

/- What is found under a key is kept, but for items. -/
def Holds (caches : Caches) (key : Key) (entry : Entry) :
    Prop :=
  key.dictionary = .items ∨ caches.entry? key = some entry

end Caches

namespace ValueKeeper

/- Equal scalars are kept alike. -/
theorem get?_normalized
    (keeper : ValueKeeper)
    (content : Scalar) :
    keeper.get? content.normalized = keeper.get? content := by
  have hSame (pair : Scalar × Int) :
      pair.1.same content.normalized =
        pair.1.same content := by
    rw [Bool.eq_iff_iff, Scalar.same_iff_normalized,
      Scalar.same_iff_normalized, Scalar.normalized_normalized]
  simp only [get?, hSame]

theorem get?_keep
    (keeper : ValueKeeper)
    (content : Scalar)
    (id : Int) :
    (keeper.keep content id).get? content = some id := by
  have hSame : content.same content :=
    Scalar.same_iff_normalized.2 rfl
  simp [get?, keep, hSame]

end ValueKeeper

namespace Session

------------------------------------------------------------
-- Creations
------------------------------------------------------------

namespace Errand

/- How often a creation is attempted. -/
def policy (policies : Policies) : Errand → Policy
  | resolveValue _ _ => policies.values
  | _ => policies.rows

/- What is said to fail when all attempts have failed. -/
def label : Errand → String
  | resolveTable _ _ _ => "Tables.get_id"
  | resolveAttribute _ _ _ _ => "Names.get_id"
  | resolveValue _ _ => "Values.get_id"
  | resolveItem _ _ _ => "Items.get_or_create_item"
  | _ => ""

/- An attempt can begin. -/
structure Pending
    (errand : Errand)
    (now : Contents)
    (kept : Caches) : Prop where
  keyed : now.Keyed
  mirrors : kept.Mirrors now
  ready : errand.IsReady now

/- A row is under the key, and is given and kept. -/
structure Granted
    (errand : Errand)
    (given : errand.Answer)
    (now : Contents)
    (kept : Caches) : Prop where
  keyed : now.Keyed
  mirrors : kept.Mirrors now
  found : ∃ key entry, errand.key? = some key ∧
    errand.entry? given = some entry ∧
      entry ∈ now.entriesOf key ∧ kept.Holds key entry

/- The rows that a creation refers to stay. -/
theorem isReady_widens
    {errand : Errand}
    {key : Key}
    (hKey : errand.key? = some key)
    {before after : Contents}
    (hReady : errand.IsReady before)
    (hWidens : before.Widens after) :
    errand.IsReady after := by
  cases errand with
  | resolveTable | resolveValue => trivial
  | resolveAttribute tableId name intent numeric =>
      exact hWidens.isSome_table? hReady
  | resolveItem tableId valueId intent =>
      exact ⟨hWidens.isSome_table? hReady.1,
        hWidens.isSome_value? hReady.2⟩
  | _ => cases hKey

end Errand

------------------------------------------------------------
-- Attempts
------------------------------------------------------------

section Attempts

variable {clock : Clock} {now : Contents} {kept : Caches}
variable {errand : Errand} {key : Key}

/-
  A row that is missing is added.  It is there even if the
  answer of the statement is lost.
-/
theorem suffers_added
    (hKey : errand.key? = some key)
    (hPending : errand.Pending now kept)
    {added : Statement}
    {next : added.Answer → Program errand.Answer}
    (hNever : ∀ error,
      added.run clock now ≠ .error error)
    (hAdds : ∀ answer after,
      added.run clock now = .ok (answer, after) →
        now.Grows after ∧
          (after.Keyed → kept.Mirrors after →
            (next answer).Suffers clock after kept
              (Attempted errand.Granted errand.Pending))) :
    (run added >>= next).Suffers clock now kept
      (Attempted errand.Granted errand.Pending) := by
  cases hRun : added.run clock now with
  | error error => exact absurd hRun (hNever error)
  | ok given =>
      rcases given with ⟨answer, after⟩
      rcases hAdds answer after hRun with ⟨hGrows, hNext⟩
      have hKeyed :=
        hPending.keyed.effect (Statement.effect hRun)
      have hMirrors := hPending.mirrors.grows hGrows
      have hReady := Errand.isReady_widens hKey
        hPending.ready (.ofGrows hGrows)
      exact suffers_run_bind hRun hPending
        ⟨hKeyed, hMirrors, hReady⟩ (hNext hKeyed hMirrors)

------------------------------------------------------------
-- Tables
------------------------------------------------------------

theorem suffers_keepTable
    (hKeyed : now.Keyed)
    (hMirrors : kept.Mirrors now)
    {row : Table}
    (hRow : row ∈ now.tables.rows)
    (numeric : Bool) :
    (some <$> keepTable row).Suffers clock now kept
      (Attempted
        (Errand.resolveTable row.name .create numeric).Granted
        (Errand.resolveTable row.name .create
          numeric).Pending) := by
  have hGet := hMirrors.get?_keepTable hKeyed hRow
  refine suffers_cached (suffers_done (.succeeds
    ⟨hKeyed, { hMirrors with
      tables := hMirrors.tables.keep hRow }, _, _, rfl, ?_,
        Contents.mem_entriesOf_table_iff.2
          ⟨row, hRow, rfl, rfl⟩, Or.inr ?_⟩))
  · simp only [hGet, Option.getD_some]
    rfl
  · simp only [Caches.entry?, hGet, Option.map_some]

/- One attempt to find or to create a table. -/
theorem suffers_findTable
    {name : String}
    {numeric : Bool}
    (hPending : (Errand.resolveTable name .create
      numeric).Pending now kept) :
    (Tables.findOrAdd name .create numeric).Suffers clock now
      kept
      (Attempted
        (Errand.resolveTable name .create numeric).Granted
        (Errand.resolveTable name .create
          numeric).Pending) := by
  have hRead : (Statement.tableNamed name).run clock now =
      .ok (now.tableNamed? name, now) := rfl
  refine suffers_run_bind hRead hPending hPending ?_
  cases hFound : now.tableNamed? name with
  | some row =>
      rcases hPending.keyed.tableNamed?_eq_some_iff.1 hFound
        with ⟨hRow, rfl⟩
      exact suffers_keepTable hPending.keyed hPending.mirrors
        hRow numeric
  | none =>
      refine suffers_added rfl hPending (fun error hAdd => ?_)
        fun id after hAdd => ⟨Contents.addTable_grows hAdd,
          fun hKeyed hMirrors => ?_⟩
      · rcases (hPending.keyed.knows_table_iff.1
          (hPending.keyed.knows_of_addTable hAdd).2) with
          ⟨row, hThere⟩
        rw [hFound] at hThere
        cases hThere
      · rcases Contents.addTable_eq_ok hAdd with ⟨-, -, rfl⟩
        exact suffers_keepTable hKeyed hMirrors
          (Contents.mem_push_iff.2 (Or.inr rfl)) numeric

------------------------------------------------------------
-- Attributes
------------------------------------------------------------

theorem suffers_keepAttribute
    (hKeyed : now.Keyed)
    (hMirrors : kept.Mirrors now)
    {row : Attribute}
    (hRow : row ∈ now.attributes.rows)
    (numeric : Bool) :
    (some <$> keepAttribute row).Suffers clock now kept
      (Attempted
        (Errand.resolveAttribute row.tableId row.name .create
          numeric).Granted
        (Errand.resolveAttribute row.tableId row.name .create
          numeric).Pending) := by
  have hGet := hMirrors.get?_keepAttribute hKeyed hRow
  refine suffers_cached (suffers_done (.succeeds
    ⟨hKeyed, { hMirrors with
      attributes := hMirrors.attributes.keep hRow }, _, _, rfl,
        ?_, Contents.mem_entriesOf_column_iff.2
          ⟨row, hRow, ⟨rfl, rfl⟩, rfl⟩, Or.inr ?_⟩))
  · simp only [hGet, Option.getD_some]
    rfl
  · simp only [Caches.entry?, hGet, Option.map_some]

/- One attempt to find or to create an attribute. -/
theorem suffers_findAttribute
    {tableId : Int}
    {name : String}
    {numeric : Bool}
    (hPending : (Errand.resolveAttribute tableId name .create
      numeric).Pending now kept) :
    (Attributes.findOrAdd tableId name .create
      numeric).Suffers clock now kept
      (Attempted
        (Errand.resolveAttribute tableId name .create
          numeric).Granted
        (Errand.resolveAttribute tableId name .create
          numeric).Pending) := by
  have hRead :
      (Statement.attributeNamed tableId name).run clock now =
        .ok (now.attributeNamed? tableId name, now) := rfl
  refine suffers_run_bind hRead hPending hPending ?_
  cases hFound : now.attributeNamed? tableId name with
  | some row =>
      rcases hPending.keyed.attributeNamed?_eq_some_iff.1
        hFound with ⟨hRow, rfl, rfl⟩
      exact suffers_keepAttribute hPending.keyed
        hPending.mirrors hRow numeric
  | none =>
      refine suffers_added rfl hPending (fun error hAdd => ?_)
        fun id after hAdd =>
          ⟨Contents.addAttribute_grows hAdd,
            fun hKeyed hMirrors => ?_⟩
      · rcases (hPending.keyed.knows_column_iff.1
          (hPending.keyed.knows_of_addAttribute
            hPending.ready hAdd).2) with ⟨row, hThere⟩
        rw [hFound] at hThere
        cases hThere
      · rcases Contents.addAttribute_eq_ok hAdd with
          ⟨-, -, -, rfl⟩
        exact suffers_keepAttribute hKeyed hMirrors
          (Contents.mem_push_iff.2 (Or.inr rfl)) numeric

------------------------------------------------------------
-- Values
------------------------------------------------------------

theorem suffers_keepValue
    (hKeyed : now.Keyed)
    (hMirrors : kept.Mirrors now)
    {content : Scalar}
    {id : Int}
    (hRow : ⟨id, content.normalized⟩ ∈ now.values.rows) :
    (keepValue content id >>= fun _ =>
      (pure (some id) : Program (Option Int))).Suffers clock
        now kept
      (Attempted (Errand.resolveValue content .create).Granted
        (Errand.resolveValue content .create).Pending) := by
  refine suffers_cached (suffers_done (.succeeds
    ⟨hKeyed, { hMirrors with
      values := hMirrors.values.keep hRow }, _, ⟨id, none⟩,
        rfl, rfl, Contents.mem_entriesOf_value_iff.2
          ⟨_, hRow, rfl, rfl⟩, Or.inr ?_⟩))
  simp only [Caches.entry?, ValueKeeper.get?_normalized,
    ValueKeeper.get?_keep, Option.map_some]

/- One attempt to find or to create a value. -/
theorem suffers_findValue
    {content : Scalar}
    (hPending : (Errand.resolveValue content .create).Pending
      now kept) :
    (Values.findOrAdd content .create).Suffers clock now kept
      (Attempted (Errand.resolveValue content .create).Granted
        (Errand.resolveValue content .create).Pending) := by
  have hRead : (Statement.valueOf content).run clock now =
      .ok (now.valueOf? content, now) := rfl
  refine suffers_run_bind hRead hPending hPending ?_
  cases hFound : now.valueOf? content with
  | some row =>
      rcases hPending.keyed.valueOf?_eq_some_iff.1 hFound with
        ⟨hRow, hSame⟩
      exact suffers_keepValue hPending.keyed hPending.mirrors
        (hSame ▸ hRow)
  | none =>
      refine suffers_added rfl hPending (fun error hAdd => ?_)
        fun id after hAdd => ⟨Contents.addValue_grows hAdd,
          fun hKeyed hMirrors => ?_⟩
      · rcases (hPending.keyed.knows_value_iff.1
          (hPending.keyed.knows_of_addValue hAdd).2) with
          ⟨row, hThere⟩
        rw [hFound] at hThere
        cases hThere
      · rcases Contents.addValue_eq_ok hAdd with ⟨-, -, rfl⟩
        exact suffers_keepValue hKeyed hMirrors
          (Contents.mem_push_iff.2 (Or.inr rfl))

------------------------------------------------------------
-- Items
------------------------------------------------------------

/- One attempt to find or to create an item. -/
theorem suffers_findItem
    {tableId valueId : Int}
    (hPending : (Errand.resolveItem tableId valueId
      .create).Pending now kept) :
    (Items.findOrAdd tableId valueId .create).Suffers clock
      now kept
      (Attempted
        (Errand.resolveItem tableId valueId .create).Granted
        (Errand.resolveItem tableId valueId
          .create).Pending) := by
  have hRead :
      (Statement.itemOf tableId valueId).run clock now =
        .ok (now.itemOf? tableId valueId, now) := rfl
  refine suffers_run_bind hRead hPending hPending ?_
  cases hFound : now.itemOf? tableId valueId with
  | some row =>
      rcases hPending.keyed.itemOf?_eq_some_iff.1 hFound with
        ⟨hRow, hKey⟩
      exact suffers_done (.succeeds ⟨hPending.keyed,
        hPending.mirrors, _, _, rfl, rfl,
          Contents.mem_entriesOf_item_iff.2
            ⟨row, hRow, hKey, rfl⟩, Or.inl rfl⟩)
  | none =>
      refine suffers_added rfl hPending (fun error hAdd => ?_)
        fun id after hAdd => ⟨Contents.addItem_grows hAdd,
          fun hKeyed hMirrors => ?_⟩
      · rcases (hPending.keyed.knows_item_iff.1
          (hPending.keyed.knows_of_addItem hPending.ready.1
            hPending.ready.2 hAdd).2) with ⟨row, hThere⟩
        rw [hFound] at hThere
        cases hThere
      · exact suffers_done (.succeeds ⟨hKeyed, hMirrors, _, _,
          rfl, rfl, (Contents.adds_addItem hAdd).2,
            Or.inl rfl⟩)

------------------------------------------------------------
-- All attempts
------------------------------------------------------------

/-
  A creation that passes its check ends with a row that was
  kept before, or with what its attempts come to.
-/
theorem suffers_creation
    (policies : Policies)
    (hKey : errand.key? = some key)
    (hCheck : errand.check = .ok ())
    (hPending : errand.Pending now kept) :
    (errand.program policies).Suffers clock now kept
      fun met outcome after kept =>
        (∀ failure ∈ met, failure.error.isRetryable) →
          Policy.Endured errand.label
            (errand.policy policies).attempts
            (errand.policy policies).attempts errand.Granted
            errand.Pending met outcome after kept := by
  have hAtOnce {given : errand.Answer}
      (hGranted : errand.Granted given now kept) :
      (done (.ok given)).Suffers clock now kept
        fun met outcome after kept =>
          (∀ failure ∈ met, failure.error.isRetryable) →
            Policy.Endured errand.label
              (errand.policy policies).attempts
              (errand.policy policies).attempts errand.Granted
              errand.Pending met outcome after kept :=
    suffers_done fun _ =>
      .succeeds (errand.policy policies).positive hGranted
  cases errand with
  | resolveTable name intent numeric =>
      cases intent with
      | lookup => cases hKey
      | create =>
          refine suffers_check_bind hCheck ?_
          refine suffers_caches_bind ?_
          cases hGet : kept.tables.get? name with
          | some row =>
              rcases hPending.mirrors.tables.get?_eq_some hGet
                with ⟨hRow, hName⟩
              refine hAtOnce ⟨hPending.keyed,
                hPending.mirrors, _, _, rfl, rfl,
                  Contents.mem_entriesOf_table_iff.2
                    ⟨row, hRow, hName, rfl⟩, Or.inr ?_⟩
              simp only [Caches.entry?, hGet, Option.map_some]
          | none =>
              exact policies.rows.suffers_run _
                (fun _ _ => suffers_findTable) hPending
  | resolveAttribute tableId name intent numeric =>
      cases intent with
      | lookup => cases hKey
      | create =>
          refine suffers_check_bind hCheck ?_
          refine suffers_caches_bind ?_
          cases hGet : kept.attributes.get?
              (tableId, name) with
          | some row =>
              rcases hPending.mirrors.attributes.get?_eq_some
                hGet with ⟨hRow, hName⟩
              refine hAtOnce ⟨hPending.keyed,
                hPending.mirrors, _, _, rfl, rfl,
                  Contents.mem_entriesOf_column_iff.2
                    ⟨row, hRow, Prod.ext_iff.1 hName, rfl⟩,
                Or.inr ?_⟩
              simp only [Caches.entry?, hGet, Option.map_some]
          | none =>
              exact policies.rows.suffers_run _
                (fun _ _ => suffers_findAttribute) hPending
  | resolveValue content intent =>
      cases intent with
      | lookup => cases hKey
      | create =>
          refine suffers_check_bind hCheck ?_
          refine suffers_caches_bind ?_
          cases hGet : kept.values.get? content with
          | some id =>
              have hRow :=
                hPending.mirrors.values.get?_eq_some hGet
              refine hAtOnce ⟨hPending.keyed,
                hPending.mirrors, _, ⟨id, none⟩, rfl, rfl,
                  Contents.mem_entriesOf_value_iff.2
                    ⟨_, hRow, rfl, rfl⟩, Or.inr ?_⟩
              simp only [Caches.entry?,
                ValueKeeper.get?_normalized, hGet,
                Option.map_some]
          | none =>
              exact policies.values.suffers_run _
                (fun _ _ => suffers_findValue) hPending
  | resolveItem tableId valueId intent =>
      cases intent with
      | lookup => cases hKey
      | create =>
          exact policies.rows.suffers_run _
            (fun _ _ => suffers_findItem) hPending
  | _ => cases hKey

/- A creation that fails its check does nothing else. -/
theorem meets_refused
    (policies : Policies)
    {error : Error}
    (hCheck : errand.check = .error error)
    (shared : Shared) :
    (errand.program policies).Meets shared [] (.error error)
      shared := by
  cases errand with
  | resolveTable | resolveAttribute | resolveValue =>
      constructor
      · exact congrArg (failures shared)
          (congrArg (fun check => done check >>= _) hCheck)
      · exact congrArg (advance shared)
          (congrArg (fun check => done check >>= _) hCheck)
  | _ => cases hCheck

end Attempts

namespace Errand

/-
  What a creation comes to.  Its attempts end with the first
  failure that they meet, so as many attempts have failed as
  failures were met.
-/
structure Endures
    (errand : Errand)
    (policies : Policies)
    (key : Key)
    (met : List Failure)
    (outcome : Except Error errand.Answer)
    (after : Shared) : Prop where
  /- While an attempt is left there is one row, and it is
  given and kept. -/
  granted : met.length < (errand.policy policies).attempts →
    ∃ given entry, outcome = .ok given ∧
      errand.entry? given = some entry ∧
        after.store.engine.contents.entriesOf key = [entry] ∧
          after.caches.Holds key entry
  /- When none is left the last failure is the cause. -/
  exhausted : met.length = (errand.policy policies).attempts →
    ∃ last, met.getLast? = some last ∧
      outcome = .error (.exhausted errand.label
        (errand.policy policies).attempts last.error)
  bounded : met.length ≤ (errand.policy policies).attempts
  /- Nothing is kept that is not in the store. -/
  mirrors : after.caches.Mirrors after.store.engine.contents

theorem endures_of_endured
    {errand : Errand}
    {policies : Policies}
    {key : Key}
    (hKey : errand.key? = some key)
    {met : List Failure}
    {outcome : Except Error errand.Answer}
    {after : Shared}
    (hEndured : Policy.Endured errand.label
      (errand.policy policies).attempts
      (errand.policy policies).attempts errand.Granted
      errand.Pending met outcome after.store.engine.contents
      after.caches) :
    errand.Endures policies key met outcome after := by
  cases hEndured with
  | succeeds hFew hGood =>
      rcases hGood.found with
        ⟨found, entry, hFound, hEntry, hMem, hHolds⟩
      cases hKey.symm.trans hFound
      exact
        { granted := fun _ => ⟨_, entry, rfl, hEntry,
            hGood.keyed.entriesOf_eq hMem, hHolds⟩
          exhausted := fun hAll => absurd hAll hFew.ne
          bounded := hFew.le
          mirrors := hGood.mirrors }
  | exhausted hAll hLast hInv =>
      exact
        { granted := fun hFew => absurd hAll hFew.ne
          exhausted := fun _ => ⟨_, hLast, rfl⟩
          bounded := hAll.le
          mirrors := hInv.mirrors }

end Errand

/-
  A row is to be created, and whatever is planned to fail, the
  failures that are met are those of the store.  Unless its
  name or scalar is refused at once, the creation gives the
  one row under its key as long as an attempt is left, and
  the last failure otherwise.
-/
theorem creations_endure_failures
    {shared : Shared}
    (hReachable : Reachable shared)
    (before : List Happening)
    (faults : Faults)
    (policies : Policies)
    {errand : Errand}
    {key : Key}
    (hKey : errand.key? = some key)
    {start : Shared}
    (hStart : start =
      withFaults (happen (calm shared) before) faults)
    (hReady : errand.IsReady start.store.engine.contents)
    {met : List Failure}
    (hMet : (errand.program policies).failures start = met)
    (hStore : ∀ failure ∈ met, failure.error.isRetryable) :
    ∃ outcome after,
      (errand.program policies).advance start =
        (.finished outcome, after) ∧
      match errand.check with
      | .ok () => errand.Endures policies key met outcome after
      | .error error =>
          met = [] ∧ outcome = .error error ∧
            after = start := by
  cases hCheck : errand.check with
  | error error =>
      have hMeets := meets_refused policies hCheck start
      exact ⟨_, _, hMeets.advance,
        hMet.symm.trans hMeets.failures, rfl, rfl⟩
  | ok _ =>
      have hTidy := (hReachable.tidy.happen before).1
      rcases hHappened : happen (calm shared) before with
        ⟨⟨⟨contents, hold⟩, clock, planned⟩, caches⟩
      rw [hHappened] at hStart hTidy
      have hFree : hold = none := hTidy.free
      subst hStart hFree
      have hPending : errand.Pending contents caches :=
        ⟨hTidy.keyed, hTidy.mirrors, hReady⟩
      rcases suffers_creation policies hKey hCheck hPending
        faults with
        ⟨found, outcome, after, kept, later, hMeets, hEnd⟩
      cases hMet.symm.trans hMeets.failures
      exact ⟨outcome, _, hMeets.advance,
        Errand.endures_of_endured hKey (hEnd hStore)⟩

/-
  The answer of an insertion is lost, and then so many
  look-ups are refused.
-/
def losing (further : Nat) : Faults where
  planned :=
    [{ kind := some (.statement .insert)
       text := ""
       skip := 0
       times := 1
       late := true
       error := .store (.other "lost") },
     { kind := some (.statement .query)
       text := ""
       skip := 1
       times := further
       late := false
       error := .store (.other "refused") }]
  fired := 0

/- A new store where that is planned. -/
def losingStore (further : Nat) : Shared :=
  withFaults (calm Moment.new.shared) (losing further)

/-
  Of three attempts to create a value the first adds it.  The
  third one finds it, or fails like the second.
-/
theorem creations_endure_failures_lost :
    (∃ id after,
      (Values.resolve .forValues (.text "x") .create).advance
          (losingStore 1) =
        (.finished (.ok (some id)), after) ∧
      after.store.engine.contents.entriesOf
          (.value (.text "x")) = [⟨id, none⟩] ∧
      after.caches.Holds (.value (.text "x")) ⟨id, none⟩) ∧
    ∃ after,
      (Values.resolve .forValues (.text "x") .create).advance
          (losingStore 2) =
        (.finished (.error (.exhausted "Values.get_id" 3
          (.store (.other "refused")))), after) ∧
      after.caches.Mirrors after.store.engine.contents := by
  have hMet :
      ((Values.resolve .forValues (.text "x")
        .create).failures (losingStore 1)).map
          Failure.error =
        [.store (.other "lost"), .store (.other "refused")] ∧
      ((Values.resolve .forValues (.text "x")
        .create).failures (losingStore 2)).map
          Failure.error =
        [.store (.other "lost"), .store (.other "refused"),
          .store (.other "refused")] := by
    decide +kernel
  have hStore {met : List Failure} {errors : List Error}
      (hErrors : met.map Failure.error = errors)
      (hAll : ∀ error ∈ errors, error.isRetryable) :
      ∀ failure ∈ met, failure.error.isRetryable :=
    fun failure hFailure => hAll _
      (hErrors ▸ List.mem_map_of_mem hFailure)
  have hKey :
      (Errand.resolveValue (.text "x") .create).key? =
        some (.value (.text "x")) := rfl
  constructor
  · rcases creations_endure_failures .refl [] (losing 1)
      ⟨.standard, .forValues⟩ hKey rfl trivial rfl
      (hStore hMet.1 (by decide)) with
      ⟨outcome, after, hAdvance, hEnd⟩
    have hFew := congrArg List.length hMet.1
    rw [List.length_map] at hFew
    rcases hEnd.granted (hFew.trans_lt (by decide)) with
      ⟨given, entry, rfl, hEntry, hOnly, hHolds⟩
    rcases Option.map_eq_some_iff.1 hEntry with
      ⟨id, rfl, rfl⟩
    exact ⟨id, after, hAdvance, hOnly, hHolds⟩
  · rcases creations_endure_failures .refl [] (losing 2)
      ⟨.standard, .forValues⟩ hKey rfl trivial rfl
      (hStore hMet.2 (by decide)) with
      ⟨outcome, after, hAdvance, hEnd⟩
    have hAll := congrArg List.length hMet.2
    rw [List.length_map] at hAll
    rcases hEnd.exhausted hAll with ⟨last, hLast, rfl⟩
    have hError := congrArg List.getLast? hMet.2
    rw [List.getLast?_map] at hError
    have hSame : last.error = .store (.other "refused") :=
      Option.some.inj ((congrArg (Option.map Failure.error)
        hLast).symm.trans hError)
    rw [hSame] at hAdvance
    exact ⟨after, hAdvance, hEnd.mirrors⟩

/- A name that is reserved is refused, though nothing fails. -/
theorem creations_not_always_endure :
    ¬ ∀ (shared : Shared) (before : List Happening)
        (faults : Faults) (policies : Policies)
        (errand : Errand) (key : Key) (start : Shared)
        (met : List Failure),
      Reachable shared →
      errand.key? = some key →
      start =
        withFaults (happen (calm shared) before) faults →
      errand.IsReady start.store.engine.contents →
      (errand.program policies).failures start = met →
      (∀ failure ∈ met, failure.error.isRetryable) →
      ∃ outcome after,
        (errand.program policies).advance start =
          (.finished outcome, after) ∧
        errand.Endures policies key met outcome after := by
  intro hAll
  have hCheck :
      (Errand.resolveTable "value" .create false).check =
        .error (.validation
          (.dictionaryReserved "Table" "value")) := by
    decide +kernel
  have hMeets := meets_refused default hCheck
    (withFaults (happen (calm Moment.new.shared) []) .none)
  rcases hAll Moment.new.shared [] .none default
    (.resolveTable "value" .create false)
    (.table "value") _ [] .refl rfl rfl trivial
    hMeets.failures (List.forall_mem_nil _) with
    ⟨outcome, after, hAdvance, hEndures⟩
  rw [hMeets.advance] at hAdvance
  cases hAdvance
  rcases hEndures.granted (Policy.positive _) with
    ⟨given, entry, hOutcome, -⟩
  cases hOutcome

end Session

end SparseTables

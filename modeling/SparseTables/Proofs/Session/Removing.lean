import SparseTables.Proofs.Contents.Dropping
import SparseTables.Proofs.Session.Reading

/-
  This file shows what the calls that delete items, drop
  tables and reset the store leave behind.

  Tables are dropped and the store is reset outside of
  transactions.  What a failing statement leaves is sound
  because slots go first and what they refer to goes last.

  Main declarations:
    * `Session.ensures_delete`
    * `Session.ensures_dropTable`
    * `Session.ensures_reset`
-/

namespace SparseTables

variable {setup : Setup}
variable {contents : Contents} {caches : Caches}

------------------------------------------------------------
-- Purging
------------------------------------------------------------

namespace Program

/- What a call leaves if it succeeds. -/
def Leaves (good : Contents → Prop) : Post Unit :=
  fun outcome after _ => outcome = .ok () → good after

variable {mid good : Contents → Prop}

theorem leaves_error
    (error : Error)
    (contents : Contents)
    (caches : Caches) :
    Leaves good (.error error) contents caches := by
  intro hSame
  cases hSame

theorem ensures_leaves
    (hSound : contents.Sound)
    (hGood : good contents) :
    (pure () : Program Unit).Ensures setup contents caches
      (Leaves good) :=
  ensures_pure hSound fun _ => hGood

/- A statement whose result is not used. -/
theorem ensures_wipe
    (hFree : setup.saved = none)
    (hSound : contents.Sound)
    {asked : Statement}
    {next : asked.Answer → Program Unit}
    (hSafe : ∀ answer after,
      asked.run setup.clock contents = .ok (answer, after) →
        after.Sound)
    (hNext : ∀ answer after,
      asked.run setup.clock contents = .ok (answer, after) →
        after.Sound →
          (next answer).Ensures setup after caches
            (Leaves good)) :
    (run asked >>= next).Ensures setup contents caches
      (Leaves good) := by
  refine ensures_run_bind hFree hSound ?_
    (fun error _ => leaves_error error _ _)
    fun _ error => leaves_error error _ _
  intro answer after hRuns
  have hAfter := hSafe answer after hRuns
  exact ⟨hAfter, hNext answer after hRuns hAfter,
    fun _ error => leaves_error error _ _⟩

/- One part of a call after another. -/
theorem ensures_seq
    {first next : Program Unit}
    (hFirst : first.Ensures setup contents caches
      (Leaves mid))
    (hNext : ∀ after caches, after.Sound → mid after →
      next.Ensures setup after caches (Leaves good)) :
    (first >>= fun _ => next).Ensures setup contents caches
      (Leaves good) :=
  hFirst.bind
    (fun _ after caches hSound _ hMid =>
      hNext after caches hSound (hMid rfl))
    fun error _ _ _ _ _ => leaves_error error _ _

end Program

/- The slots of a table go before its attributes. -/
theorem Attributes.ensures_purge
    (hFree : setup.saved = none)
    (hSound : contents.Sound)
    (tableId : Int) :
    (Attributes.purge tableId).Ensures setup contents caches
      (Program.Leaves fun _ => True) := by
  apply Program.ensures_wipe hFree hSound
  · intro _ _ hSame
    cases hSame
    exact hSound.removeSlots _
  intro _ _ hSame hCleared
  cases hSame
  apply Program.ensures_wipe hFree hCleared
  · intro _ _ hSame
    cases hSame
    exact hSound.purgeAttributes tableId
  intro _ _ hSame hPurged
  cases hSame
  exact Program.ensures_leaves hPurged trivial

/- The slots of a table go before its items. -/
theorem Items.ensures_purge
    (hFree : setup.saved = none)
    (hSound : contents.Sound)
    (tableId : Int) :
    (Items.purge tableId).Ensures setup contents caches
      (Program.Leaves fun _ => True) := by
  apply Program.ensures_wipe hFree hSound
  · intro _ _ hSame
    cases hSame
    exact hSound.removeSlots _
  intro _ _ hSame hCleared
  cases hSame
  apply Program.ensures_wipe hFree hCleared
  · intro _ _ hSame
    cases hSame
    exact hCleared.removeItems _
  intro _ _ hSame hEmptied
  cases hSame
  apply Program.ensures_wipe hFree hEmptied
  · intro _ _ hSame
    cases hSame
    exact hEmptied.removeSlots _
  intro _ _ hSame hSwept
  cases hSame
  exact Program.ensures_leaves hSwept trivial

/- The row of a table goes if nothing refers to it. -/
theorem Tables.ensures_remove
    (hFree : setup.saved = none)
    (hSound : contents.Sound)
    (tableId : Int) :
    (Tables.remove tableId).Ensures setup contents caches
      (Program.Leaves fun _ => True) := by
  apply Program.ensures_wipe hFree hSound
  · intro count after hRun
    change contents.removeTables (fun other =>
      other == tableId) = .ok (count, after) at hRun
    exact hSound.removeTables hRun
  · intro _ _ _ hAfter
    exact Program.ensures_leaves hAfter trivial

------------------------------------------------------------
-- Resetting
------------------------------------------------------------

/- After a reset of the items no slots are left. -/
theorem Items.ensures_reset
    (hFree : setup.saved = none)
    (hSound : contents.Sound) :
    Items.reset.Ensures setup contents caches
      (Program.Leaves fun after => after.slots = []) := by
  apply Program.ensures_wipe hFree hSound
  · intro _ _ hSame
    cases hSame
    exact hSound.removeSlots _
  intro _ _ hSame hCleared
  cases hSame
  apply Program.ensures_wipe hFree hCleared
  · intro _ _ hSame
    cases hSame
    exact hCleared.removeItems _
  intro _ _ hSame hEmptied
  cases hSame
  exact Program.ensures_leaves hEmptied
    (List.filter_eq_nil_iff.2 (by simp))

/- Values are removed while there are no slots. -/
theorem Values.ensures_reset
    (hFree : setup.saved = none)
    (hSound : contents.Sound)
    (hSlots : contents.slots = []) :
    Values.reset.Ensures setup contents caches
      (Program.Leaves fun after => after.slots = []) := by
  apply Program.ensures_wipe hFree hSound
  · intro count after hRun
    exact hSound.removeValues hSlots hRun
  intro count after hRun hAfter
  rcases Contents.removeValues_eq_ok hRun with ⟨-, rfl⟩
  exact Program.ensures_leaves hAfter hSlots

/- Attributes are removed while there are no slots. -/
theorem Attributes.ensures_reset
    (hFree : setup.saved = none)
    (hSound : contents.Sound)
    (hSlots : contents.slots = []) :
    Attributes.reset.Ensures setup contents caches
      (Program.Leaves fun _ => True) := by
  apply Program.ensures_wipe hFree hSound
  · intro _ _ hSame
    cases hSame
    apply hSound.removeAttributes
    simp [hSlots]
  intro _ _ _ hAfter
  exact Program.ensures_leaves hAfter trivial

theorem Tables.ensures_reset
    (hFree : setup.saved = none)
    (hSound : contents.Sound) :
    Tables.reset.Ensures setup contents caches
      (Program.Leaves fun _ => True) := by
  apply Program.ensures_wipe hFree hSound
  · intro count after hRun
    change contents.removeTables (fun _ => true) =
      .ok (count, after) at hRun
    exact hSound.removeTables hRun
  intro _ _ _ hAfter
  exact Program.ensures_leaves hAfter trivial

------------------------------------------------------------
-- Calls
------------------------------------------------------------

namespace Session

/- Whatever happened, the caches are empty at the end. -/
theorem ensures_clearing
    {wiping : Program Unit}
    {post : Program.Post Unit}
    (hWiping : wiping.Ensures setup contents caches post) :
    (do
      let wiped ← Program.attempt wiping
      Program.clearCaches
      Program.done wiped : Program Unit).Ensures setup
        contents caches fun _ after caches =>
          caches.Mirrors after := by
  have hAttempt :
      (Program.attempt wiping).Ensures setup contents caches
        fun outcome _ _ => ∃ wiped, outcome = .ok wiped :=
    .attempt (hWiping.mono fun _ _ _ _ _ _ => ⟨_, rfl⟩)
  apply hAttempt.bind
  · intro wiped after caches hSound _ _
    exact Program.ensures_cached hSound
      (Program.ensures_done hSound (.empty after))
  · intro error after caches _ _ hEnd
    rcases hEnd with ⟨wiped, hWiped⟩
    cases hWiped

/- The row of a table goes after all that refers to it. -/
theorem ensures_drop
    (hFree : setup.saved = none)
    (hSound : contents.Sound)
    (tableId : Int) :
    (do
      Attributes.purge tableId
      Items.purge tableId
      Tables.remove tableId : Program Unit).Ensures setup
        contents caches (Program.Leaves fun _ => True) := by
  refine Program.ensures_seq
    (Attributes.ensures_purge hFree hSound tableId)
    fun contents caches hSound _ => ?_
  refine Program.ensures_seq
    (Items.ensures_purge hFree hSound tableId)
    fun contents caches hSound _ => ?_
  exact Tables.ensures_remove hFree hSound tableId

/- After a table was dropped the caches are empty. -/
theorem ensures_dropTable
    (hFree : setup.saved = none)
    (hSound : contents.Sound)
    (policies : Policies)
    (name : String) :
    (dropTable policies name).Ensures setup contents caches
      fun _ after caches => caches.Mirrors after := by
  apply Program.ensures_cached hSound
  apply (Tables.ensures_resolve hFree hSound (.empty contents)
    policies.rows name .lookup false).bind
  · intro found after caches hAfter _ hEnd
    rcases hEnd with ⟨-, hMirrors, -⟩
    cases found with
    | none => exact Program.ensures_pure hAfter hMirrors
    | some table =>
        exact ensures_clearing
          (ensures_drop hFree hAfter table.id)
  · intro error after caches _ _ hEnd
    rcases hEnd with ⟨-, hMirrors, -⟩
    exact hMirrors

/- All slots go before what they refer to. -/
theorem ensures_wipes
    (hFree : setup.saved = none)
    (hSound : contents.Sound)
    (dictionaries : Bool) :
    (do
      Items.reset
      if dictionaries then
        Values.reset
        Attributes.reset
        Tables.reset : Program Unit).Ensures setup contents
          caches (Program.Leaves fun _ => True) := by
  refine Program.ensures_seq
    (Items.ensures_reset hFree hSound)
    fun contents caches hSound hSlots => ?_
  cases dictionaries with
  | false => exact Program.ensures_leaves hSound trivial
  | true =>
      refine Program.ensures_seq
        (Values.ensures_reset hFree hSound hSlots)
        fun contents caches hSound hSlots => ?_
      refine Program.ensures_seq
        (Attributes.ensures_reset hFree hSound hSlots)
        fun contents caches hSound _ => ?_
      exact Tables.ensures_reset hFree hSound

/- After a reset the caches are empty. -/
theorem ensures_reset
    (hFree : setup.saved = none)
    (hSound : contents.Sound)
    (dictionaries : Bool) :
    (reset dictionaries).Ensures setup contents caches
      fun _ after caches => caches.Mirrors after :=
  ensures_clearing (ensures_wipes hFree hSound dictionaries)

/- Deleting items leaves their slots and the dictionaries. -/
theorem ensures_delete
    (hFree : setup.saved = none)
    (hSound : contents.Sound)
    (hMirrors : caches.Mirrors contents)
    (policies : Policies)
    (name : String)
    (keys : List Scalar) :
    (delete policies name keys).Ensures setup contents caches
      fun _ after caches => caches.Mirrors after := by
  apply (Tables.ensures_resolve hFree hSound hMirrors
    policies.rows name .lookup false).bind
  · intro found after caches hAfter _ hEnd
    rcases hEnd with ⟨-, hMirrors, -⟩
    cases found with
    | none => exact Program.ensures_pure hAfter hMirrors
    | some table =>
        apply (ensures_itemsUnder hFree hAfter hMirrors
          policies table keys).bind
        · intro doomed after caches hAfter _ hEnd
          rcases hEnd with ⟨rfl, hMirrors, -⟩
          apply (Items.ensures_remove hFree hAfter
            doomed).bind
          · intro _ _ caches hAfter _ hEnd
            rcases hEnd with ⟨rfl, rfl⟩
            exact Program.ensures_pure hAfter
              { hMirrors with }
          · intro error after _ _ _ hEnd
            rcases hEnd with ⟨rfl, -, rfl | ⟨-, rfl⟩⟩
            · exact hMirrors
            · exact { hMirrors with }
        · intro error after caches _ _ hEnd
          rcases hEnd with ⟨rfl, hMirrors, -⟩
          exact hMirrors
  · intro error after caches _ _ hEnd
    rcases hEnd with ⟨-, hMirrors, -⟩
    exact hMirrors

end Session

end SparseTables

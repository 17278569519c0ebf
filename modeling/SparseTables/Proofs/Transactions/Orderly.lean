import Mathlib.Data.List.Count
import SparseTables.Proofs.Transactions.Scopes

/-
  This file shows that the count of a hold, its gate and the
  connection stay in order, whatever the tasks do with their
  scopes and in whatever way their calls fail.

  Main declarations:
    * `ScopedStore.Moves`
    * `ScopedStore.Orderly`
    * `ScopedStore.Orderly.moves`
    * `ScopedStore.Orderly.follow`
-/

namespace SparseTables

------------------------------------------------------------
-- Statements
------------------------------------------------------------

/- There is nothing left to undo after a rollback. -/
theorem Connection.rollback_rollback
    (connection : Connection) :
    connection.rollback.rollback = connection.rollback :=
  rfl

/- What a statement leaves of the contents. -/
def Statement.leaves
    (asked : Statement)
    (clock : Clock)
    (failure : Option Failure)
    (contents : Contents) : Contents :=
  match failure, asked.run clock contents with
  | some ⟨false, _⟩, _ => contents
  | _, .ok (_, after) => after
  | _, .error _ => contents

namespace ScopedStore

variable {store after : ScopedStore}

------------------------------------------------------------
-- Single acts
------------------------------------------------------------

/- Put other contents in the place of the present ones. -/
def write
    (store : ScopedStore)
    (contents : Contents) : ScopedStore :=
  { store with
    connection := { store.connection with contents } }

/- Open a transaction for a new hold. -/
def hold (store : ScopedStore) : ScopedStore :=
  { store with
    connection :=
      { store.connection with
        saved := some store.connection.contents } }.acquire

/- Ask for a commit, which leaves something to undo or not. -/
def ask
    (store : ScopedStore)
    (saved : Option Contents) : ScopedStore :=
  { store with
    connection :=
      { store.connection with
        saved
        commits := store.connection.commits + 1 } }

theorem run_snd
    (store : ScopedStore)
    (clock : Clock)
    (failure : Option Failure)
    (asked : Statement) :
    (store.run clock failure asked).2 =
      store.write
        (asked.leaves clock failure
          store.connection.contents) := by
  unfold run write Statement.leaves Connection.run
  rcases asked.run clock store.connection.contents with
    error | ⟨answer, contents⟩
  all_goals rcases failure with _ | ⟨_ | _, error⟩ <;> rfl

/- A transaction that is begun and lost leaves no trace. -/
theorem begin_of_closed
    (failure : Option Failure)
    (hClosed : store.connection.saved = none) :
    store.begin failure =
      match failure with
      | none => (.ok (), store.hold)
      | some failure => (.error failure.error, store) := by
  rcases store with ⟨⟨contents, saved, commits⟩, _, _, _⟩
  subst hClosed
  rcases failure with _ | ⟨_ | _, error⟩ <;> rfl

theorem begin_of_early
    (store : ScopedStore)
    (error : Error) :
    store.begin (some ⟨false, error⟩) =
      (.error error, store) := by
  unfold begin
  cases store.connection.begin with
  | mk answer connection => rfl

/- A commit is left to the connection while the count is one. -/
theorem commit_snd
    (store : ScopedStore)
    (failure : Option Failure)
    (hold : Nat) :
    (store.commit failure hold).2 = store ∨
      store.counts hold = 1 ∧
        ∃ saved, (saved = store.connection.saved ∨
          saved = none) ∧
          (store.commit failure hold).2 = store.ask saved := by
  unfold commit
  split
  · exact Or.inl rfl
  · next hCount =>
      refine Or.inr ⟨hCount, ?_⟩
      rcases store with ⟨⟨contents, _ | before, commits⟩, _⟩
      · exact ⟨none, Or.inr rfl, by
          rcases failure with _ | ⟨_ | _, error⟩ <;> rfl⟩
      · rcases failure with _ | ⟨_ | _, error⟩
        · exact ⟨none, Or.inr rfl, rfl⟩
        · exact ⟨some before, Or.inl rfl, rfl⟩
        · exact ⟨none, Or.inr rfl, rfl⟩
  · exact Or.inl rfl

theorem mem_of_scope?
    {number : Nat}
    {handle : Handle}
    (hScope : store.scope? number = some handle) :
    handle ∈ store.scopes ∧ handle.number = number := by
  have hNumber := List.find?_some hScope
  exact ⟨List.mem_of_find?_eq_some hScope, by
    simpa using hNumber⟩

------------------------------------------------------------
-- Turns
------------------------------------------------------------

section Equations

variable
  (store : ScopedStore)
  (clock : Clock)
  (failure : Option Failure)
  (number : Nat)

theorem turn?_shared (asked : Statement) :
    store.turn? ⟨clock, failure, .shared asked⟩ =
      if store.waits failure then none
      else some (store.run clock failure asked).2 := by
  unfold turn? take?
  split <;> rfl

theorem turn?_begin :
    store.turn? ⟨clock, failure, .begin⟩ =
      if store.waits failure then none
      else some (store.begin failure).2 := by
  unfold turn? take?
  split <;> rfl

theorem turn?_nest :
    store.turn? ⟨clock, failure, .nest number⟩ =
      (store.scope? number).map fun handle =>
        store.nest handle.hold :=
  Option.map_map _ _ (store.scope? number)

theorem turn?_held (asked : Statement) :
    store.turn? ⟨clock, failure, .held number asked⟩ =
      (store.scope? number).map fun _ =>
        (store.run clock failure asked).2 :=
  Option.map_map _ _ (store.scope? number)

theorem turn?_commit :
    store.turn? ⟨clock, failure, .commit number⟩ =
      (store.scope? number).map fun handle =>
        (store.commit failure handle.hold).2 :=
  Option.map_map _ _ (store.scope? number)

theorem turn?_drop :
    store.turn? ⟨clock, failure, .drop number⟩ =
      (store.scope? number).map fun handle =>
        store.drop handle :=
  Option.map_map _ _ (store.scope? number)

end Equations

/- What a turn can do to a store. -/
inductive Moves (store : ScopedStore) :
    Turn → ScopedStore → Prop where
  /- A refused call, or an inner commit. -/
  | stays
      {turn : Turn}
      (hIdle : ∀ scope asked,
        turn.act ≠ .held scope asked) :
      Moves store turn store
  | shared
      {clock : Clock}
      {failure : Option Failure}
      {asked : Statement}
      (hGate : store.gate = none) :
      Moves store ⟨clock, failure, .shared asked⟩
        (store.write
          (asked.leaves clock failure
            store.connection.contents))
  | begun
      {clock : Clock}
      (hGate : store.gate = none) :
      Moves store ⟨clock, none, .begin⟩ store.hold
  | nested
      {clock : Clock}
      {failure : Option Failure}
      {handle : Handle}
      (hHandle : handle ∈ store.scopes) :
      Moves store ⟨clock, failure, .nest handle.number⟩
        (store.nest handle.hold)
  | held
      {clock : Clock}
      {failure : Option Failure}
      {asked : Statement}
      {handle : Handle}
      (hHandle : handle ∈ store.scopes) :
      Moves store ⟨clock, failure, .held handle.number asked⟩
        (store.write
          (asked.leaves clock failure
            store.connection.contents))
  | asked
      {clock : Clock}
      {failure : Option Failure}
      {handle : Handle}
      {saved : Option Contents}
      (hHandle : handle ∈ store.scopes)
      (hCount : store.counts handle.hold = 1)
      (hSaved : saved = store.connection.saved ∨
        saved = none) :
      Moves store ⟨clock, failure, .commit handle.number⟩
        (store.ask saved)
  | dropped
      {clock : Clock}
      {failure : Option Failure}
      {handle : Handle}
      (hHandle : handle ∈ store.scopes) :
      Moves store ⟨clock, failure, .drop handle.number⟩
        (store.drop handle)

/-
  The gate, the count and the connection agree with the
  scopes that are left.
-/
structure Orderly (store : ScopedStore) : Prop where
  gated : ∀ handle ∈ store.scopes,
    store.gate = some handle.hold
  taken : store.gate.isSome → store.scopes ≠ []
  counted : ∀ hold, store.counts hold = store.sharing hold
  closed : store.gate = none →
    store.connection.saved = none

namespace Orderly

/- A new store is in order. -/
theorem ofContents (contents : Contents) :
    (ofContents contents).Orderly where
  gated := by simp [ScopedStore.ofContents]
  taken := by simp [ScopedStore.ofContents]
  counted := fun _ => rfl
  closed := fun _ => rfl

/- Whoever waits for the gate finds nothing open. -/
theorem closed_of_passes
    {failure : Option Failure}
    (hOrderly : store.Orderly)
    (hPasses : ¬store.waits failure = true) :
    (∃ error, failure = some ⟨false, error⟩) ∨
      store.gate = none ∧ store.connection.saved = none := by
  rcases failure with _ | ⟨_ | _, error⟩
  · have hGate : store.gate = none := by
      simpa [waits] using hPasses
    exact Or.inr ⟨hGate, hOrderly.closed hGate⟩
  · exact Or.inl ⟨error, rfl⟩
  · have hGate : store.gate = none := by
      simpa [waits] using hPasses
    exact Or.inr ⟨hGate, hOrderly.closed hGate⟩

/- What a turn does in a store that is in order. -/
theorem moves
    {turn : Turn}
    (hOrderly : store.Orderly)
    (hTurn : store.turn? turn = some after) :
    store.Moves turn after := by
  rcases turn with ⟨clock, failure, act⟩
  cases act with
  | shared asked =>
      rw [turn?_shared, Option.ite_none_left_eq_some] at hTurn
      rcases hTurn with ⟨hPasses, hAfter⟩
      rw [← Option.some.inj hAfter, run_snd]
      rcases hOrderly.closed_of_passes hPasses with
        ⟨error, rfl⟩ | ⟨hGate, -⟩
      · exact .stays (by simp)
      · exact .shared hGate
  | begin =>
      rw [turn?_begin, Option.ite_none_left_eq_some] at hTurn
      rcases hTurn with ⟨hPasses, hAfter⟩
      rw [← Option.some.inj hAfter]
      rcases hOrderly.closed_of_passes hPasses with
        ⟨error, rfl⟩ | ⟨hGate, hClosed⟩
      · rw [begin_of_early]
        exact .stays (by simp)
      · rw [begin_of_closed failure hClosed]
        cases failure with
        | none => exact .begun hGate
        | some failure => exact .stays (by simp)
  | nest number =>
      rw [turn?_nest, Option.map_eq_some_iff] at hTurn
      rcases hTurn with ⟨handle, hScope, rfl⟩
      rcases mem_of_scope? hScope with ⟨hHandle, rfl⟩
      exact .nested hHandle
  | held number asked =>
      rw [turn?_held, Option.map_eq_some_iff] at hTurn
      rcases hTurn with ⟨handle, hScope, rfl⟩
      rcases mem_of_scope? hScope with ⟨hHandle, rfl⟩
      rw [run_snd]
      exact .held hHandle
  | commit number =>
      rw [turn?_commit, Option.map_eq_some_iff] at hTurn
      rcases hTurn with ⟨handle, hScope, rfl⟩
      rcases mem_of_scope? hScope with ⟨hHandle, rfl⟩
      rcases store.commit_snd failure handle.hold with
        hSame | ⟨hCount, saved, hSaved, hAsk⟩
      · rw [hSame]
        exact .stays (by simp)
      · rw [hAsk]
        exact .asked hHandle hCount hSaved
  | drop number =>
      rw [turn?_drop, Option.map_eq_some_iff] at hTurn
      rcases hTurn with ⟨handle, hScope, rfl⟩
      rcases mem_of_scope? hScope with ⟨hHandle, rfl⟩
      exact .dropped hHandle

/- The count of a hold with a scope is the number of scopes. -/
theorem sharing_eq
    {handle : Handle}
    (hOrderly : store.Orderly)
    (hHandle : handle ∈ store.scopes) :
    store.sharing handle.hold = store.scopes.length := by
  refine List.countP_eq_length.mpr ?_
  intro other hOther
  have hSame : some other.hold = some handle.hold :=
    (hOrderly.gated other hOther).symm.trans
      (hOrderly.gated handle hHandle)
  simpa using hSame

theorem count_eq
    {handle : Handle}
    (hOrderly : store.Orderly)
    (hHandle : handle ∈ store.scopes) :
    store.counts handle.hold = store.scopes.length :=
  (hOrderly.counted _).trans (hOrderly.sharing_eq hHandle)

/- A hold without the gate has no scope. -/
theorem count_other
    {handle : Handle}
    {hold : Nat}
    (hOrderly : store.Orderly)
    (hHandle : handle ∈ store.scopes)
    (hOther : hold ≠ handle.hold) :
    store.counts hold = 0 := by
  rw [hOrderly.counted]
  refine List.countP_eq_zero.mpr ?_
  intro other hMem hHold
  have hSame : some other.hold = some handle.hold :=
    (hOrderly.gated other hMem).symm.trans
      (hOrderly.gated handle hHandle)
  exact hOther
    ((of_decide_eq_true hHold).symm.trans
      (Option.some.inj hSame))

/- Where the gate is free there is no scope. -/
theorem scopes_eq_nil
    (hOrderly : store.Orderly)
    (hGate : store.gate = none) :
    store.scopes = [] := by
  refine List.eq_nil_iff_forall_not_mem.mpr ?_
  intro handle hHandle
  have hTaken := hOrderly.gated handle hHandle
  rw [hGate] at hTaken
  cases hTaken

/- The order does not depend on the contents. -/
theorem write
    (hOrderly : store.Orderly)
    (contents : Contents) :
    (store.write contents).Orderly :=
  ⟨hOrderly.gated, hOrderly.taken, hOrderly.counted,
    hOrderly.closed⟩

theorem hold
    (hOrderly : store.Orderly)
    (hGate : store.gate = none) :
    store.hold.Orderly := by
  have hNone := hOrderly.scopes_eq_nil hGate
  refine ⟨?_, ?_, ?_, ?_⟩
  · simp [ScopedStore.hold, acquire, setCount, hNone]
  · simp [ScopedStore.hold, acquire, setCount]
  · intro hold
    have hCount := hOrderly.counted hold
    simp only [sharing, hNone, List.countP_nil] at hCount
    by_cases hNew : hold = store.holds
    · subst hNew
      simp [ScopedStore.hold, acquire, setCount, sharing, hNone]
    · simp [ScopedStore.hold, acquire, setCount, sharing, hNone,
        hNew, hCount, Ne.symm hNew]
  · simp [ScopedStore.hold, acquire, setCount]

theorem nest
    {handle : Handle}
    (hOrderly : store.Orderly)
    (hHandle : handle ∈ store.scopes) :
    (store.nest handle.hold).Orderly := by
  have hGate := hOrderly.gated handle hHandle
  refine ⟨?_, ?_, ?_, ?_⟩
  · intro other hOther
    rcases List.mem_append.mp hOther with hOld | hNew
    · exact hOrderly.gated other hOld
    · rw [List.mem_singleton.mp hNew]
      exact hGate
  · simp [ScopedStore.nest, setCount]
  · intro hold
    have hCount := hOrderly.counted hold
    by_cases hSame : hold = handle.hold
    · subst hSame
      simp only [sharing] at hCount
      simp [ScopedStore.nest, setCount, sharing, hCount]
    · simp only [sharing] at hCount
      simp [ScopedStore.nest, setCount, sharing, hCount, hSame,
        Ne.symm hSame]
  · intro hFree
    exact hOrderly.closed hFree

/- Someone who has the gate can ask for a commit. -/
theorem ask
    {handle : Handle}
    (hOrderly : store.Orderly)
    (hHandle : handle ∈ store.scopes)
    (saved : Option Contents) :
    (store.ask saved).Orderly := by
  refine ⟨hOrderly.gated, hOrderly.taken, hOrderly.counted, ?_⟩
  intro hFree
  have hGate := hOrderly.gated handle hHandle
  rw [show store.gate = none from hFree] at hGate
  cases hGate

/- Without a scope, one scope less shares its hold. -/
theorem sharing_erase
    {handle : Handle}
    (hHandle : handle ∈ store.scopes)
    (hold : Nat) :
    (store.scopes.erase handle).countP
        (fun other => decide (other.hold = hold)) =
      store.sharing hold -
        if handle.hold = hold then 1 else 0 := by
  rw [List.countP_erase]
  simp [sharing, hHandle]

/- The last scope to be dropped undoes and frees. -/
theorem drop_last
    {handle : Handle}
    (hOrderly : store.Orderly)
    (hHandle : handle ∈ store.scopes)
    (hCount : store.counts handle.hold = 1) :
    store.drop handle =
      { store.setCount handle.hold 0 with
        connection := store.connection.rollback
        scopes := []
        gate := none } := by
  have hLength : store.scopes.length = 1 :=
    (hOrderly.count_eq hHandle).symm.trans hCount
  rcases List.length_eq_one_iff.mp hLength with ⟨only, hOnly⟩
  have hSame : handle = only := by simpa [hOnly] using hHandle
  subst hSame
  simp [ScopedStore.drop, hCount, hOnly, sharing, free,
    rollback, setCount, Connection.rollback_rollback]

/- Any other scope to be dropped only counts itself out. -/
theorem drop_other
    {handle : Handle}
    (hOrderly : store.Orderly)
    (hHandle : handle ∈ store.scopes)
    (hCount : store.counts handle.hold ≠ 1) :
    store.drop handle =
      { store.setCount handle.hold
          (store.counts handle.hold - 1) with
        scopes := store.scopes.erase handle } := by
  have hLeft :
      (store.scopes.erase handle).countP
        (fun other => decide (other.hold = handle.hold)) ≠
          0 := by
    have hPositive := List.length_pos_of_mem hHandle
    have hLength := hOrderly.count_eq hHandle
    have hSharing := hOrderly.sharing_eq hHandle
    rw [sharing_erase hHandle, if_pos rfl]
    omega
  simp [ScopedStore.drop, hCount, sharing, setCount, hLeft]

theorem drop
    {handle : Handle}
    (hOrderly : store.Orderly)
    (hHandle : handle ∈ store.scopes) :
    (store.drop handle).Orderly := by
  by_cases hCount : store.counts handle.hold = 1
  · rw [hOrderly.drop_last hHandle hCount]
    refine ⟨by simp, by simp, ?_, fun _ => rfl⟩
    intro hold
    by_cases hSame : hold = handle.hold
    · simp [setCount, sharing, hSame]
    · simp [setCount, sharing, hSame,
        hOrderly.count_other hHandle hSame]
  · rw [hOrderly.drop_other hHandle hCount]
    refine ⟨?_, ?_, ?_, hOrderly.closed⟩
    · intro other hOther
      exact hOrderly.gated other (List.mem_of_mem_erase hOther)
    · intro _ hNone
      have hLength := List.length_erase_of_mem hHandle
      have hCounted := hOrderly.count_eq hHandle
      have hPositive := List.length_pos_of_mem hHandle
      rw [show store.scopes.erase handle = [] from hNone,
        List.length_nil] at hLength
      omega
    · intro hold
      have hErase := sharing_erase hHandle hold
      by_cases hSame : hold = handle.hold
      · subst hSame
        simpa [setCount, sharing, hOrderly.counted] using
          hErase.symm
      · simpa [setCount, sharing, hOrderly.counted, hSame,
          Ne.symm hSame] using hErase.symm

/- A turn keeps the order. -/
theorem turn
    {turn : Turn}
    (hOrderly : store.Orderly)
    (hTurn : store.turn? turn = some after) :
    after.Orderly := by
  cases hOrderly.moves hTurn with
  | stays _ => exact hOrderly
  | shared _ => exact hOrderly.write _
  | begun hGate => exact hOrderly.hold hGate
  | nested hHandle => exact hOrderly.nest hHandle
  | held _ => exact hOrderly.write _
  | asked hHandle _ _ => exact hOrderly.ask hHandle _
  | dropped hHandle => exact hOrderly.drop hHandle

/- So do all turns that follow one another. -/
theorem follow
    {turns : List Turn}
    (hOrderly : store.Orderly)
    (hFollow : store.follow turns = some after) :
    after.Orderly := by
  induction turns generalizing store with
  | nil =>
      cases hFollow
      exact hOrderly
  | cons turn rest ih =>
      rcases Option.bind_eq_some_iff.mp hFollow with
        ⟨next, hTurn, hRest⟩
      exact ih (hOrderly.turn hTurn) hRest

end Orderly

end ScopedStore

end SparseTables

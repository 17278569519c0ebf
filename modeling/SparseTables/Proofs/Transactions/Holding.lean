import SparseTables.Proofs.Program.Runs
import SparseTables.Proofs.Transactions.Orderly

/-
  This file shows that a store whose scopes are kept with a
  count and a gate is the store that programs run on, and
  what holds of it however its scopes are created, used and
  dropped.

  Main declarations:
    * `ScopedStore.engine`
    * `ScopedStore.Orderly.step?_request`
    * `ScopedStore.holds_are_exclusive`
-/

namespace SparseTables

------------------------------------------------------------
-- Calls
------------------------------------------------------------

/- The error of a call that may fail is planned, or its own. -/
theorem Failure.of_strike
    {α σ : Type}
    {failure : Option Failure}
    {before : σ}
    {call : Except Error α × σ}
    {error : Error}
    (hStrike : (strike failure before call).1 =
      .error error) :
    (∃ met ∈ failure, met.error = error) ∨
      call.1 = .error error := by
  rcases failure with _ | ⟨_ | _, met⟩
  · exact Or.inr hStrike
  · cases hStrike
    exact Or.inl ⟨_, rfl, rfl⟩
  · rcases call with ⟨own | found, after⟩
    · exact Or.inr hStrike
    · cases hStrike
      exact Or.inl ⟨_, rfl, rfl⟩

namespace Store

/- What a request gives once it is decided how it fails. -/
def call?
    (store : Store)
    (failure : Option Failure)
    (request : Request) :
    Option (Except Error request.Answer × Store) :=
  match failure with
  | some ⟨false, error⟩ => some (.error error, store)
  | other =>
      if store.engine.blocks request then none
      else
        some (store.perform request
          (other.map Failure.error))

/- A request is decided on, and then it is called. -/
theorem step?_request
    (shared : Shared)
    (request : Request) :
    (Program.request request).step? shared =
      ((shared.store.meet request).2.call?
        (shared.store.meet request).1 request).map
        fun (answer, store) =>
          (Program.done answer, { shared with store }) := by
  rcases hMeet : shared.store.meet request with
    ⟨_ | ⟨_ | _, error⟩, store⟩
  all_goals simp only [Program.request, Program.step?, call?,
    hMeet]
  · split <;> rfl
  · rfl
  · split <;> rfl

/-
  Only the planned failures change when it is decided how a
  request fails; an inner call cannot fail.
-/
theorem meet_eq (store : Store) (request : Request) :
    ∃ failure faults,
      store.meet request =
        (failure, { store with faults }) ∧
      (store.engine.kind? request = none →
        failure = none) := by
  unfold meet
  cases store.engine.kind? request with
  | none => exact ⟨none, store.faults, rfl, fun _ => rfl⟩
  | some kind => exact ⟨_, _, rfl, by simp⟩

end Store

namespace ScopedStore

variable {store after : ScopedStore}

------------------------------------------------------------
-- The store that programs run on
------------------------------------------------------------

/- What is held, without how it is kept. -/
def engine (store : ScopedStore) : Engine where
  contents := store.connection.contents
  hold := store.gate.map fun hold =>
    ⟨store.counts hold - 1, store.connection.saved⟩

/- The scope that an act names is there. -/
def Names (store : ScopedStore) : Act → Prop
  | .shared _ => True
  | .begin => True
  | .nest scope => (store.scope? scope).isSome
  | .held scope _ => (store.scope? scope).isSome
  | .commit scope => (store.scope? scope).isSome
  | .drop scope => (store.scope? scope).isSome

/- What an act gives, for the store of programs. -/
def seen
    {α : Type}
    (clock : Clock)
    (faults : Faults)
    (given : Except Error α × ScopedStore) :
    Except Error α × Store :=
  (given.1, ⟨given.2.engine, clock, faults⟩)

section Seen

variable
  (store : ScopedStore)
  (clock : Clock)
  (faults : Faults)
  (failure : Option Failure)

theorem call?_held (asked : Statement) :
    Store.call? ⟨store.engine, clock, faults⟩ failure
        (.held asked) =
      some (seen clock faults
        (store.run clock failure asked)) := by
  unfold run Connection.run Store.call? Store.perform
  cases hRun : asked.run clock store.connection.contents
  all_goals
    rcases failure with _ | ⟨_ | _, error⟩
    all_goals
      simp [seen, Engine.blocks, Engine.perform,
        Engine.statement, engine, hRun, Failure.strike]

theorem call?_shared (asked : Statement) :
    Store.call? ⟨store.engine, clock, faults⟩ failure
        (.shared asked) =
      if store.waits failure then none
      else
        some (seen clock faults
          (store.run clock failure asked)) := by
  unfold run Connection.run Store.call? Store.perform
  cases hRun : asked.run clock store.connection.contents
  all_goals
    rcases failure with _ | ⟨_ | _, error⟩
    all_goals
      simp [seen, waits, Engine.blocks, Engine.perform,
        Engine.statement, engine, hRun, Failure.strike] <;>
        rfl

theorem call?_nest
    {handle : Handle}
    (hOrderly : store.Orderly)
    (hHandle : handle ∈ store.scopes) :
    Store.call? ⟨store.engine, clock, faults⟩ none .nest =
      some (seen clock faults
        (.ok (), store.nest handle.hold)) := by
  have hCount := hOrderly.count_eq hHandle
  have hPositive := List.length_pos_of_mem hHandle
  have hFurther : store.counts handle.hold - 1 + 1 =
      store.counts handle.hold := by omega
  simp [seen, Store.call?, Store.perform, Engine.blocks,
    Engine.perform, Engine.nest, engine, nest, setCount,
    hOrderly.gated handle hHandle, hFurther]

theorem call?_begin (hOrderly : store.Orderly) :
    Store.call? ⟨store.engine, clock, faults⟩ failure .begin =
      if store.waits failure then none
      else some (seen clock faults (store.begin failure)) := by
  have hBlocks : store.engine.blocks .begin =
      store.gate.isSome := by
    simp [Engine.blocks, engine]
  by_cases hWaits : store.waits failure = true
  · rw [if_pos hWaits]
    rcases failure with _ | ⟨_ | _, error⟩
    · exact if_pos (hBlocks.trans hWaits)
    · cases hWaits
    · exact if_pos (hBlocks.trans hWaits)
  · rw [if_neg hWaits]
    rcases hOrderly.closed_of_passes hWaits with
      ⟨error, rfl⟩ | ⟨hGate, hClosed⟩
    · rw [begin_of_early]
      rfl
    · rw [begin_of_closed failure hClosed]
      rcases failure with _ | ⟨_ | _, error⟩
      · simp [Store.call?, Engine.blocks, hGate, seen, engine,
          hold, acquire, setCount, Store.perform, Engine.perform,
          Engine.begin]
      · rfl
      · simp [Store.call?, Engine.blocks, hGate, seen, engine,
          Store.perform, Engine.perform, Engine.begin,
          Engine.release, Engine.committed]

/- The count decides whether a commit reaches the store. -/
theorem call?_commit
    {handle : Handle}
    (hOrderly : store.Orderly)
    (hHandle : handle ∈ store.scopes)
    (hNone : store.engine.kind? .commit = none →
      failure = none) :
    Store.call? ⟨store.engine, clock, faults⟩ failure
        .commit =
      some (seen clock faults
        (store.commit failure handle.hold)) := by
  have hGate := hOrderly.gated handle hHandle
  have hCount := hOrderly.count_eq hHandle
  have hPositive := List.length_pos_of_mem hHandle
  rcases hNumber : store.counts handle.hold with
    _ | _ | further
  · omega
  · rcases hSaved : store.connection.saved with _ | saved
    all_goals
      rcases failure with _ | ⟨_ | _, error⟩
      all_goals
        simp [seen, Store.call?, Engine.blocks, Store.perform,
          Engine.perform, Engine.commit, commit, engine,
          hGate, hNumber, hSaved, Connection.commit,
          Failure.strike]
  · have hFailure : failure = none := by
      refine hNone ?_
      simp [Engine.kind?, Engine.depth, engine, hGate,
        hNumber, Hold.depth]
    subst hFailure
    simp [seen, Store.call?, Engine.blocks, Store.perform,
      Engine.perform, Engine.commit, commit, engine, hGate,
      hNumber]

theorem call?_drop
    {handle : Handle}
    (hOrderly : store.Orderly)
    (hHandle : handle ∈ store.scopes) :
    Store.call? ⟨store.engine, clock, faults⟩ none
        .release =
      some (seen clock faults
        (.ok (), store.drop handle)) := by
  have hGate := hOrderly.gated handle hHandle
  have hCount := hOrderly.count_eq hHandle
  have hPositive := List.length_pos_of_mem hHandle
  by_cases hLast : store.counts handle.hold = 1
  · rw [hOrderly.drop_last hHandle hLast]
    simp [seen, Store.call?, Engine.blocks, Store.perform,
      Engine.perform, Engine.release, Engine.committed, engine,
      hGate, hLast, Connection.rollback, Connection.durable]
  · rw [hOrderly.drop_other hHandle hLast]
    have hFurther : ∃ further,
        store.counts handle.hold = further + 2 :=
      ⟨store.counts handle.hold - 2, by omega⟩
    rcases hFurther with ⟨further, hFurther⟩
    simp [seen, Store.call?, Engine.blocks, Store.perform,
      Engine.perform, Engine.release, engine, hGate, hFurther,
      setCount]

end Seen

/-
  A request of a program does to the store what the act does,
  and waits when the act does.
-/
theorem Orderly.step?_request
    {act : Act}
    (hOrderly : store.Orderly)
    (hNames : store.Names act)
    (shared : Shared)
    (hEngine : shared.store.engine = store.engine) :
    (Program.request act.request).step? shared =
      (store.take? shared.store.clock
        (shared.store.meet act.request).1 act).map
        fun (answer, after) =>
          (Program.done answer,
            { shared with
              store :=
                { (shared.store.meet act.request).2 with
                  engine := after.engine } }) := by
  rcases shared with ⟨⟨engine, clock, faults⟩, caches⟩
  subst hEngine
  rcases Store.meet_eq ⟨store.engine, clock, faults⟩
    act.request with ⟨failure, later, hMeet, hNone⟩
  rw [Store.step?_request]
  simp only [hMeet]
  cases act with
  | shared asked =>
      refine (congrArg (Option.map _)
        (call?_shared store clock later failure asked)).trans ?_
      unfold take?
      split <;> rfl
  | begin =>
      refine (congrArg (Option.map _)
        (call?_begin store clock later failure
          hOrderly)).trans ?_
      unfold take?
      split <;> rfl
  | nest scope =>
      rcases Option.isSome_iff_exists.mp hNames with
        ⟨handle, hScope⟩
      have hHandle := (mem_of_scope? hScope).1
      cases hNone rfl
      simp only [take?, hScope, Act.request,
        call?_nest store clock later hOrderly hHandle]
      rfl
  | held scope asked =>
      rcases Option.isSome_iff_exists.mp hNames with
        ⟨handle, hScope⟩
      simp only [take?, hScope, Act.request, call?_held]
      rfl
  | commit scope =>
      rcases Option.isSome_iff_exists.mp hNames with
        ⟨handle, hScope⟩
      have hHandle := (mem_of_scope? hScope).1
      simp only [take?, hScope, Act.request,
        call?_commit store clock later failure hOrderly
          hHandle hNone]
      rfl
  | drop scope =>
      rcases Option.isSome_iff_exists.mp hNames with
        ⟨handle, hScope⟩
      have hHandle := (mem_of_scope? hScope).1
      cases hNone rfl
      simp only [take?, hScope, Act.request,
        call?_drop store clock later hOrderly hHandle]
      rfl

------------------------------------------------------------
-- Exclusive use
------------------------------------------------------------

namespace Orderly

/- The gate is free exactly when there is no scope. -/
theorem gate_eq_none_iff (hOrderly : store.Orderly) :
    store.gate = none ↔ store.scopes = [] := by
  refine ⟨hOrderly.scopes_eq_nil, ?_⟩
  intro hNone
  by_contra hGate
  exact hOrderly.taken
    (Option.isSome_iff_ne_none.mpr hGate) hNone

/- Nothing outside of a hold is done while it has a scope. -/
theorem eq_of_outside
    {turn : Turn}
    (hOrderly : store.Orderly)
    (hHeld : store.scopes ≠ [])
    (hTurn : store.turn? turn = some after)
    (hOutside : turn.act = .begin ∨
      ∃ asked, turn.act = .shared asked) :
    after = store := by
  have hGate : store.gate ≠ none := fun hFree =>
    hHeld (hOrderly.gate_eq_none_iff.mp hFree)
  cases hOrderly.moves hTurn with
  | stays _ => rfl
  | shared hFree => exact absurd hFree hGate
  | begun hFree => exact absurd hFree hGate
  | nested _ => simp at hOutside
  | held _ => simp at hOutside
  | asked _ _ _ => simp at hOutside
  | dropped _ => simp at hOutside

/- A scope counts itself, so its commit finds a count. -/
theorem commit_ne_uncounted
    {handle : Handle}
    (hOrderly : store.Orderly)
    (hHandle : handle ∈ store.scopes)
    {failure : Option Failure}
    (hFailure : ∀ met ∈ failure,
      met.error ≠ Engine.uncounted) :
    (store.commit failure handle.hold).1 ≠
      .error Engine.uncounted := by
  intro hUncounted
  have hCount := hOrderly.count_eq hHandle
  have hPositive := List.length_pos_of_mem hHandle
  unfold commit at hUncounted
  rcases hNumber : store.counts handle.hold with
    _ | _ | further
  · omega
  · simp only [hNumber] at hUncounted
    rcases Failure.of_strike hUncounted with
      hMet | hCommit
    · rcases hMet with ⟨met, hMem, hSame⟩
      exact hFailure met hMem hSame
    · -- The connection has an error of its own only.
      unfold Connection.commit at hCommit
      split at hCommit <;> cases hCommit
  · simp [hNumber] at hUncounted

/- A commit is asked of the connection at a count of one. -/
theorem commits_eq
    {turn : Turn}
    (hOrderly : store.Orderly)
    (hTurn : store.turn? turn = some after)
    (hCommits : after.connection.commits ≠
      store.connection.commits) :
    ∃ handle ∈ store.scopes,
      turn.act = .commit handle.number ∧
        store.counts handle.hold = 1 := by
  cases hOrderly.moves hTurn with
  | stays _ => exact absurd rfl hCommits
  | shared _ => exact absurd rfl hCommits
  | begun _ => exact absurd rfl hCommits
  | nested _ => exact absurd rfl hCommits
  | held _ => exact absurd rfl hCommits
  | asked hHandle hCount _ =>
      exact ⟨_, hHandle, rfl, hCount⟩
  | @dropped _ _ handle hHandle =>
      refine absurd ?_ hCommits
      by_cases hCount : store.counts handle.hold = 1
      · rw [hOrderly.drop_last hHandle hCount]
        rfl
      · rw [hOrderly.drop_other hHandle hCount]
        rfl

/- Without a scope, the next transaction can begin. -/
theorem begins
    (hOrderly : store.Orderly)
    (hNone : store.scopes = [])
    (clock : Clock) :
    ∃ next,
      store.take? clock none .begin = some (.ok (), next) ∧
        next.scopes = [⟨store.given, store.holds⟩] ∧
        next.counts store.holds = 1 ∧
        next.connection.isOpen := by
  have hGate := hOrderly.gate_eq_none_iff.mpr hNone
  have hBegin : store.begin none =
      (.ok (), ScopedStore.hold store) :=
    begin_of_closed none (hOrderly.closed hGate)
  refine ⟨ScopedStore.hold store, ?_, ?_, ?_, rfl⟩
  · simp only [take?, waits, hGate, hBegin]
    rfl
  · simp [ScopedStore.hold, acquire, setCount, hNone]
  · simp [ScopedStore.hold, acquire, setCount]

end Orderly

/-
  However scopes are created, used and dropped, and however
  calls fail: there is one hold at a time, and nothing else
  is done while it has a scope; its count is the number of
  its scopes, and a commit reaches the connection at a count
  of one only; and without a scope nothing is left open and
  the next transaction begins.  All of it is what programs
  meet.
-/
theorem holds_are_exclusive
    {contents : Contents}
    {turns : List Turn}
    {store : ScopedStore}
    (hFollow : (ofContents contents).follow turns =
      some store) :
    -- one hold at a time
    (∀ handle ∈ store.scopes,
      store.gate = some handle.hold) ∧
    (∀ turn after, store.scopes ≠ [] →
      store.turn? turn = some after →
      (turn.act = .begin ∨
        ∃ asked, turn.act = .shared asked) →
      after = store) ∧
    -- the count of scopes
    (∀ handle ∈ store.scopes,
      store.counts handle.hold = store.sharing handle.hold ∧
        0 < store.counts handle.hold) ∧
    (∀ clock failure number answer after,
      (∀ met ∈ failure, met.error ≠ Engine.uncounted) →
      store.take? clock failure (.commit number) =
        some (answer, after) →
      answer ≠ .error Engine.uncounted) ∧
    (∀ turn after, store.turn? turn = some after →
      after.connection.commits ≠ store.connection.commits →
      ∃ handle ∈ store.scopes,
        turn.act = .commit handle.number ∧
          store.counts handle.hold = 1) ∧
    -- the end of a hold
    (store.scopes = [] →
      store.connection.isOpen = false ∧
        store.gate = none ∧
        ∀ clock, ∃ next,
          store.take? clock none .begin =
              some (.ok (), next) ∧
            next.scopes = [⟨store.given, store.holds⟩] ∧
            next.counts store.holds = 1 ∧
            next.connection.isOpen) ∧
    -- the requests of programs
    (∀ act, store.Names act →
      ∀ shared : Shared, shared.store.engine = store.engine →
        (Program.request act.request).step? shared =
          (store.take? shared.store.clock
            (shared.store.meet act.request).1 act).map
            fun (answer, after) =>
              (Program.done answer,
                { shared with
                  store :=
                    { (shared.store.meet act.request).2 with
                      engine := after.engine } })) := by
  have hOrderly := (Orderly.ofContents contents).follow hFollow
  refine ⟨hOrderly.gated, ?_, ?_, ?_, ?_, ?_, ?_⟩
  · intro turn after hHeld hTurn hOutside
    exact hOrderly.eq_of_outside hHeld hTurn hOutside
  · intro handle hHandle
    refine ⟨hOrderly.counted _, ?_⟩
    rw [hOrderly.count_eq hHandle]
    exact List.length_pos_of_mem hHandle
  · intro clock failure number answer after hFailure hTake
    rcases Option.map_eq_some_iff.mp hTake with
      ⟨handle, hScope, hCommit⟩
    have hAnswer : (store.commit failure handle.hold).1 =
        answer := congrArg Prod.fst hCommit
    rw [← hAnswer]
    exact hOrderly.commit_ne_uncounted
      (mem_of_scope? hScope).1 hFailure
  · intro turn after hTurn hCommits
    exact hOrderly.commits_eq hTurn hCommits
  · intro hNone
    have hGate := hOrderly.gate_eq_none_iff.mpr hNone
    refine ⟨?_, hGate, hOrderly.begins hNone⟩
    simp [Connection.isOpen, hOrderly.closed hGate]
  · intro act hNames shared hEngine
    exact hOrderly.step?_request hNames shared hEngine

/- A turn whose call does not fail. -/
def Turn.plain (act : Act) : Turn :=
  ⟨.start, none, act⟩

/- An inner scope writes, and outlives the outermost one. -/
def outliving : List Turn :=
  [.begin, .nest 0, .held 1 (.addTable "ghost" false),
    .drop 0].map Turn.plain

/- Turns that can be followed to where something holds. -/
theorem exists_of_follow
    {turns : List Turn}
    {post : ScopedStore → Prop}
    [DecidablePred post]
    (hFollow : (store.follow turns).any post = true) :
    ∃ after, store.follow turns = some after ∧ post after := by
  rcases (Option.any_eq_true _ _).mp hFollow with
    ⟨after, hAfter, hPost⟩
  exact ⟨after, hAfter, of_decide_eq_true hPost⟩

theorem holds_are_exclusive_outliving :
    ∃ store,
      (ofContents .empty).follow outliving = some store ∧
      store.scopes = [⟨1, 0⟩] ∧
      0 < store.counts 0 := by
  have hRun : ∃ store,
      (ofContents .empty).follow outliving = some store ∧
        store.scopes = [⟨1, 0⟩] :=
    exists_of_follow (by decide +kernel)
  rcases hRun with ⟨store, hStore, hScopes⟩
  refine ⟨store, hStore, hScopes, ?_⟩
  exact ((holds_are_exclusive hStore).2.2.1 ⟨1, 0⟩
    (by simp [hScopes])).2

end ScopedStore

end SparseTables

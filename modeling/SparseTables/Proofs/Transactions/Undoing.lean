import SparseTables.Proofs.Transactions.Holding

/-
  This file shows what is left of the statements of a hold
  when its last scope is dropped.

  A hold is open until a commit takes effect.  If none does,
  the contents at its end are those at its beginning.  From
  the commit on there is nothing left to undo, so whatever is
  written through a scope stays.

  A commit acts by the count and not by the scope that asks
  for it.  An inner scope is harmless as long as the outermost
  scope is there; once that is dropped it can be the last one
  and commit.

  Main declarations:
    * `ScopedStore.replay`
    * `ScopedStore.settles`
    * `ScopedStore.Throughout`
    * `ScopedStore.replayed_of_follow`
    * `ScopedStore.uncommitted_hold_is_undone`
    * `ScopedStore.statement_is_undone_or_stays`
-/

namespace SparseTables

namespace ScopedStore

variable {store after : ScopedStore}

------------------------------------------------------------
-- Turns of a hold
------------------------------------------------------------

/- What a turn of a hold makes of the contents. -/
def Turn.effect (turn : Turn) (contents : Contents) :
    Contents :=
  match turn.act with
  | .held _ asked =>
      asked.leaves turn.clock turn.failure contents
  | _ => contents

/- What the statements of a hold make of the contents. -/
def replay (turns : List Turn) (contents : Contents) :
    Contents :=
  turns.foldl (fun found turn => turn.effect found) contents

/- Is a turn a commit that takes effect? -/
def settles (store : ScopedStore) (turn : Turn) : Bool :=
  match turn.act with
  | .commit _ =>
      store.connection.isOpen &&
        (store.turn? turn).any fun after =>
          !after.connection.isOpen
  | _ => false

/- A condition on all turns that follow one another. -/
def Throughout
    (may : ScopedStore → Turn → Prop)
    (store : ScopedStore) : List Turn → Prop
  | [] => True
  | turn :: rest =>
      may store turn ∧
        ∀ after, store.turn? turn = some after →
          after.Throughout may rest

instance decidableThroughout
    (may : ScopedStore → Turn → Prop)
    [∀ store turn, Decidable (may store turn)] :
    (turns : List Turn) → (store : ScopedStore) →
      Decidable (store.Throughout may turns)
  | [], _ => isTrue trivial
  | turn :: rest, store =>
      match hTurn : store.turn? turn with
      | none =>
          decidable_of_iff (may store turn)
            (by simp [Throughout, hTurn])
      | some after =>
          have := decidableThroughout may rest after
          decidable_of_iff
            (may store turn ∧ after.Throughout may rest)
            (by simp [Throughout, hTurn])

/- Two conditions that together give a third one. -/
theorem Throughout.both
    {may may' most : ScopedStore → Turn → Prop}
    {turns : List Turn}
    (hOrderly : store.Orderly)
    (hMay : store.Throughout may turns)
    (hMay' : store.Throughout may' turns)
    (hMost : ∀ store turn, store.Orderly →
      may store turn → may' store turn → most store turn) :
    store.Throughout most turns := by
  induction turns generalizing store with
  | nil => trivial
  | cons turn rest ih =>
      refine ⟨hMost _ _ hOrderly hMay.1 hMay'.1, ?_⟩
      intro after hTurn
      exact ih (hOrderly.turn hTurn) (hMay.2 after hTurn)
        (hMay'.2 after hTurn)

/- A hold that is over does not come back. -/
theorem Orderly.gate_of_turn
    {hold : Nat}
    {turn : Turn}
    (hOrderly : store.Orderly)
    (hHold : hold < store.holds)
    (hTurn : store.turn? turn = some after) :
    hold < after.holds ∧
      (after.gate = some hold → store.gate = some hold) := by
  cases hOrderly.moves hTurn with
  | stays _ => exact ⟨hHold, id⟩
  | shared _ => exact ⟨hHold, id⟩
  | begun _ =>
      refine ⟨Nat.lt_succ_of_lt hHold, ?_⟩
      intro hGate
      have hSame : store.holds = hold := Option.some.inj hGate
      omega
  | nested _ => exact ⟨hHold, id⟩
  | held _ => exact ⟨hHold, id⟩
  | asked _ _ _ => exact ⟨hHold, id⟩
  | @dropped _ _ handle hHandle =>
      by_cases hCount : store.counts handle.hold = 1
      · rw [hOrderly.drop_last hHandle hCount]
        exact ⟨hHold, by simp⟩
      · rw [hOrderly.drop_other hHandle hCount]
        exact ⟨hHold, id⟩

/-
  While a hold goes on, its statements have their effects, and
  a commit that takes effect ends its transaction.
-/
theorem Orderly.effect_of_turn
    {hold : Nat}
    {turn : Turn}
    (hOrderly : store.Orderly)
    (hGate : store.gate = some hold)
    (hTurn : store.turn? turn = some after)
    (hOn : after.gate = some hold) :
    after.connection.contents =
        turn.effect store.connection.contents ∧
      after.connection.saved =
        if store.settles turn then none
        else store.connection.saved := by
  cases hOrderly.moves hTurn with
  | stays hIdle =>
      refine ⟨?_, ?_⟩
      · unfold Turn.effect
        split
        · exact absurd ‹_› (hIdle _ _)
        · rfl
      · have hKeeps : store.settles turn = false := by
          unfold settles
          split
          · simp [hTurn]
          · rfl
        rw [hKeeps]
        rfl
  | shared hFree => simp [hFree] at hGate
  | begun hFree => simp [hFree] at hGate
  | nested _ => exact ⟨rfl, rfl⟩
  | held _ => exact ⟨rfl, rfl⟩
  | asked hHandle hCount hSaved =>
      refine ⟨rfl, ?_⟩
      simp only [settles, hTurn, Connection.isOpen,
        Option.any_some]
      rcases hSaved with rfl | rfl
      · rcases store.connection.saved with _ | saved <;> rfl
      · rcases store.connection.saved with _ | saved <;> rfl
  | @dropped _ _ handle hHandle =>
      by_cases hCount : store.counts handle.hold = 1
      · rw [hOrderly.drop_last hHandle hCount] at hOn
        cases hOn
      · rw [hOrderly.drop_other hHandle hCount]
        exact ⟨rfl, rfl⟩

/- The last scope undoes what is not committed. -/
theorem Orderly.undone_of_turn
    {hold : Nat}
    {turn : Turn}
    (hOrderly : store.Orderly)
    (hGate : store.gate = some hold)
    (hTurn : store.turn? turn = some after)
    (hOff : after.gate ≠ some hold) :
    after.connection.contents = store.connection.durable ∧
      after.scopes = [] := by
  cases hOrderly.moves hTurn with
  | stays _ => exact absurd hGate hOff
  | shared _ => exact absurd hGate hOff
  | begun hFree => simp [hFree] at hGate
  | nested _ => exact absurd hGate hOff
  | held _ => exact absurd hGate hOff
  | asked _ _ _ => exact absurd hGate hOff
  | @dropped _ _ handle hHandle =>
      by_cases hCount : store.counts handle.hold = 1
      · rw [hOrderly.drop_last hHandle hCount]
        exact ⟨rfl, rfl⟩
      · rw [hOrderly.drop_other hHandle hCount] at hOff
        exact absurd hGate hOff

------------------------------------------------------------
-- Runs of a hold
------------------------------------------------------------

/- The number of a hold is not given again. -/
theorem Orderly.holds_of_follow
    {hold : Nat}
    {turns : List Turn}
    (hOrderly : store.Orderly)
    (hHold : hold < store.holds)
    (hFollow : store.follow turns = some after) :
    hold < after.holds := by
  induction turns generalizing store with
  | nil =>
      cases hFollow
      exact hHold
  | cons turn rest ih =>
      rcases Option.bind_eq_some_iff.mp hFollow with
        ⟨next, hTurn, hRest⟩
      exact ih (hOrderly.turn hTurn)
        (hOrderly.gate_of_turn hHold hTurn).1 hRest

/- No turn is a commit that takes effect. -/
abbrev StaysOpen (store : ScopedStore) (turns : List Turn) :
    Prop :=
  store.Throughout
    (fun store turn => store.settles turn = false) turns

/-
  As long as a hold goes on, the contents are those that its
  statements make, and its transaction is as it was unless a
  commit has taken effect.
-/
theorem replayed_of_follow
    {hold : Nat}
    {turns : List Turn}
    (hOrderly : store.Orderly)
    (hHold : hold < store.holds)
    (hFollow : store.follow turns = some after)
    (hOn : after.gate = some hold) :
    store.gate = some hold ∧
      after.connection.contents =
        replay turns store.connection.contents ∧
      after.connection.saved =
        if store.StaysOpen turns then store.connection.saved
        else none := by
  induction turns generalizing store with
  | nil =>
      cases hFollow
      exact ⟨hOn, rfl, rfl⟩
  | cons turn rest ih =>
      rcases Option.bind_eq_some_iff.mp hFollow with
        ⟨next, hTurn, hRest⟩
      rcases hOrderly.gate_of_turn hHold hTurn with
        ⟨hLater, hBack⟩
      rcases ih (hOrderly.turn hTurn) hLater hRest with
        ⟨hNext, hContents, hSaved⟩
      have hGate := hBack hNext
      rcases hOrderly.effect_of_turn hGate hTurn hNext with
        ⟨hEffect, hKept⟩
      have hCons : store.StaysOpen (turn :: rest) ↔
          store.settles turn = false ∧ next.StaysOpen rest := by
        simp [StaysOpen, Throughout, hTurn]
      refine ⟨hGate, ?_, ?_⟩
      · rw [hContents, hEffect]
        rfl
      · rw [hSaved, hKept]
        by_cases hSettles : store.settles turn = true
        · simp [hSettles, hCons]
        · simp only [hCons, hSettles, Bool.false_eq_true,
            if_false, true_and]

/- What a hold does before, in and after a statement. -/
theorem Orderly.traced
    {start before next : ScopedStore}
    {first rest : List Turn}
    {turn last : Turn}
    {hold scope : Nat}
    {asked : Statement}
    (hOrderly : start.Orderly)
    (hHold : hold < start.holds)
    (hFirst : start.follow first = some before)
    (hTurn : before.turn? turn = some next)
    (hHeld : turn.act = .held scope asked)
    (hRest : next.follow rest = some store)
    (hOn : store.gate = some hold)
    (hLast : store.turn? last = some after)
    (hOff : after.gate ≠ some hold) :
    (before.connection.saved =
        if start.StaysOpen first then start.connection.saved
        else none) ∧
      next.connection.contents =
          asked.leaves turn.clock turn.failure
            before.connection.contents ∧
      next.connection.saved = before.connection.saved ∧
      store.connection.contents =
          replay rest next.connection.contents ∧
      (store.connection.saved =
        if next.StaysOpen rest then next.connection.saved
        else none) ∧
      after.connection.contents = store.connection.durable := by
  have hBefore := hOrderly.follow hFirst
  have hNext := hBefore.turn hTurn
  have hHoldBefore := hOrderly.holds_of_follow hHold hFirst
  rcases hBefore.gate_of_turn hHoldBefore hTurn with
    ⟨hHoldNext, hBack⟩
  rcases replayed_of_follow hNext hHoldNext hRest hOn with
    ⟨hGateNext, hReplayed, hSaved⟩
  have hGate := hBack hGateNext
  rcases replayed_of_follow hOrderly hHold hFirst hGate with
    ⟨-, -, hSavedBefore⟩
  have hRun := hBefore.effect_of_turn hGate hTurn hGateNext
  have hSettles : before.settles turn = false := by
    simp [settles, hHeld]
  have hEffect : turn.effect before.connection.contents =
      asked.leaves turn.clock turn.failure
        before.connection.contents := by
    simp [Turn.effect, hHeld]
  rw [hSettles, if_neg Bool.false_ne_true, hEffect] at hRun
  have hUndone :=
    ((hNext.follow hRest).undone_of_turn hOn hLast hOff).1
  exact ⟨hSavedBefore, hRun.1, hRun.2, hReplayed, hSaved,
    hUndone⟩

/- A hold that has just begun would undo everything. -/
theorem Orderly.begun
    {clock : Clock}
    {failure : Option Failure}
    {next : ScopedStore}
    (hOrderly : store.Orderly)
    (hBegin : store.take? clock failure .begin =
      some (.ok (), next)) :
    store.turn? ⟨clock, failure, .begin⟩ = some next ∧
      next = store.hold := by
  have hTurn : store.turn? ⟨clock, failure, .begin⟩ =
      some next := by
    simp [turn?, hBegin]
  refine ⟨hTurn, ?_⟩
  by_cases hWaits : store.waits failure = true
  · simp [take?, hWaits] at hBegin
  · rw [take?, if_neg hWaits] at hBegin
    have hGiven : store.begin failure = (.ok (), next) :=
      Option.some.inj hBegin
    rcases hOrderly.closed_of_passes hWaits with
      ⟨error, rfl⟩ | ⟨-, hClosed⟩
    · rw [begin_of_early] at hGiven
      cases hGiven
    · rw [begin_of_closed failure hClosed] at hGiven
      cases failure with
      | none => exact (congrArg Prod.snd hGiven).symm
      | some failure => cases hGiven

------------------------------------------------------------
-- Inner commits
------------------------------------------------------------

/- A scope that is not the only one does not commit. -/
theorem Orderly.commit_inner
    {handle other : Handle}
    (hOrderly : store.Orderly)
    (failure : Option Failure)
    (hHandle : handle ∈ store.scopes)
    (hOther : other ∈ store.scopes)
    (hApart : handle ≠ other) :
    store.commit failure handle.hold = (.ok (), store) := by
  have hCount := hOrderly.count_eq hHandle
  have hPositive := List.length_pos_of_mem hHandle
  have hMany : store.scopes.length ≠ 1 := by
    intro hOne
    rcases List.length_eq_one_iff.mp hOne with ⟨only, hOnly⟩
    rw [hOnly, List.mem_singleton] at hHandle hOther
    exact hApart (hHandle.trans hOther.symm)
  unfold commit
  rcases hNumber : store.counts handle.hold with
    _ | _ | further
  · omega
  · omega
  · rfl

/-
  An inner commit while the outermost scope is there changes
  nothing.
-/
theorem Orderly.take?_commit_inner
    {clock : Clock}
    {failure : Option Failure}
    {outer number : Nat}
    {answer : Except Error Unit}
    (hOrderly : store.Orderly)
    (hOuter : (store.scope? outer).isSome)
    (hInner : number ≠ outer)
    (hTake : store.take? clock failure (.commit number) =
      some (answer, after)) :
    answer = .ok () ∧ after = store := by
  rcases Option.isSome_iff_exists.mp hOuter with
    ⟨other, hOther⟩
  rcases Option.map_eq_some_iff.mp hTake with
    ⟨handle, hScope, hCommit⟩
  have hCommit : store.commit failure handle.hold =
      (answer, after) := hCommit
  rcases mem_of_scope? hOther with ⟨hOtherMem, hOuterNumber⟩
  rcases mem_of_scope? hScope with ⟨hMem, hNumber⟩
  have hApart : handle ≠ other := by
    intro hSame
    exact hInner
      (hNumber.symm.trans (hSame ▸ hOuterNumber))
  rw [hOrderly.commit_inner failure hMem hOtherMem hApart]
    at hCommit
  cases hCommit
  exact ⟨rfl, rfl⟩

/- A commit that takes effect is that of the only scope. -/
theorem Orderly.only_of_settles
    {turn : Turn}
    (hOrderly : store.Orderly)
    (hSettles : store.settles turn = true) :
    ∃ handle, store.scopes = [handle] ∧
      turn.act = .commit handle.number := by
  rcases turn with ⟨clock, failure, act⟩
  cases act with
  | commit number =>
      simp only [settles, Bool.and_eq_true,
        Option.any_eq_true] at hSettles
      rcases hSettles with ⟨hOpen, after, hTurn, hOver⟩
      rw [turn?_commit, Option.map_eq_some_iff] at hTurn
      rcases hTurn with ⟨handle, hScope, rfl⟩
      rcases mem_of_scope? hScope with ⟨hHandle, rfl⟩
      rcases store.commit_snd failure handle.hold with
        hSame | ⟨hCount, -⟩
      · simp [hSame, hOpen] at hOver
      · rw [hOrderly.count_eq hHandle] at hCount
        rcases List.length_eq_one_iff.mp hCount with
          ⟨only, hOnly⟩
        rw [hOnly, List.mem_singleton] at hHandle
        exact ⟨only, hOnly, by rw [hHandle]⟩
  | _ => simp [settles] at hSettles

/-
  A commit is the outermost scope's, or made while that is
  there.
-/
def Inside (outer : Nat) (store : ScopedStore) (turn : Turn) :
    Prop :=
  match turn.act with
  | .commit scope =>
      scope = outer ∨ (store.scope? outer).isSome = true
  | _ => True

instance (outer : Nat) (store : ScopedStore) (turn : Turn) :
    Decidable (Inside outer store turn) := by
  unfold Inside
  split <;> infer_instance

/- A turn is no commit of a scope that takes effect. -/
def Unsettled
    (scope : Nat)
    (store : ScopedStore)
    (turn : Turn) : Prop :=
  turn.act = .commit scope → store.settles turn = false

instance (scope : Nat) (store : ScopedStore) (turn : Turn) :
    Decidable (Unsettled scope store turn) := by
  unfold Unsettled
  infer_instance

/- Only the outermost scope can end the transaction. -/
theorem Orderly.settles_eq_false
    {outer : Nat}
    {turn : Turn}
    (hOrderly : store.Orderly)
    (hInside : Inside outer store turn)
    (hUnsettled : Unsettled outer store turn) :
    store.settles turn = false := by
  rcases turn with ⟨clock, failure, act⟩
  cases act with
  | commit scope =>
      by_cases hOuter : scope = outer
      · exact hUnsettled (hOuter ▸ rfl)
      · have hThere : (store.scope? outer).isSome :=
          hInside.resolve_left hOuter
        simp only [settles]
        cases hTake :
            store.take? clock failure (.commit scope) with
        | none => simp [turn?, hTake]
        | some given =>
            rcases given with ⟨answer, after⟩
            rcases hOrderly.take?_commit_inner hThere hOuter
              hTake with ⟨-, rfl⟩
            simp [turn?, hTake]
  | _ => rfl

------------------------------------------------------------
-- What is left of a hold
------------------------------------------------------------

/-
  A commit that takes effect is made by the only scope that
  is left; while the outermost one is there, an inner commit
  changes nothing.  If the commits of inner scopes are of this
  kind and none of the outermost one takes effect, nothing
  becomes durable, and the contents at the end of the hold are
  those at its beginning.
-/
theorem uncommitted_hold_is_undone
    {contents : Contents}
    {turns during : List Turn}
    {free held store : ScopedStore}
    {clock : Clock}
    {failure : Option Failure}
    (hFree : (ofContents contents).follow turns = some free)
    (hBegin : free.take? clock failure .begin =
      some (.ok (), held))
    (hDuring : held.follow during = some store)
    (hOn : store.gate = held.gate) :
    (∀ clock failure number answer after,
      number ≠ free.given →
      (store.scope? free.given).isSome →
      store.take? clock failure (.commit number) =
        some (answer, after) →
      answer = .ok () ∧ after = store) ∧
    (∀ turn, store.settles turn = true →
      ∃ handle, store.scopes = [handle] ∧
        turn.act = .commit handle.number) ∧
    (held.Throughout (Inside free.given) during →
      held.Throughout (Unsettled free.given) during →
        store.connection.durable = free.connection.contents ∧
        ∀ last after, store.turn? last = some after →
          after.gate ≠ held.gate →
          after.connection.contents =
              free.connection.contents ∧
            after.scopes = []) := by
  have hOrderly := (Orderly.ofContents contents).follow hFree
  rcases hOrderly.begun hBegin with ⟨hTurn, rfl⟩
  have hHeld := hOrderly.turn hTurn
  have hStore := hHeld.follow hDuring
  rcases replayed_of_follow hHeld (Nat.lt_succ_self _)
    hDuring hOn with ⟨-, -, hSaved⟩
  refine ⟨?_, fun _ => hStore.only_of_settles, ?_⟩
  · intro clock failure number answer after hInner hOuter
      hTake
    exact hStore.take?_commit_inner hOuter hInner hTake
  · intro hInside hUnsettled
    have hOpen : free.hold.StaysOpen during :=
      hInside.both hHeld hUnsettled fun _ _ hOrderly =>
        hOrderly.settles_eq_false
    rw [if_pos hOpen] at hSaved
    have hDurable : store.connection.durable =
        free.connection.contents := by
      rw [Connection.durable, hSaved]
      rfl
    refine ⟨hDurable, ?_⟩
    intro last after hLast hOff
    rcases hStore.undone_of_turn hOn hLast hOff with
      ⟨hContents, hNone⟩
    exact ⟨hContents.trans hDurable, hNone⟩

theorem uncommitted_hold_is_undone_ghost :
    ∃ store after,
      (ofContents .empty).hold.follow
          ([.nest 0, .held 1 (.addTable "ghost" false),
            .commit 1, .drop 1].map Turn.plain) =
        some store ∧
      (store.connection.contents.tableNamed?
        "ghost").isSome ∧
      store.turn? (.plain (.drop 0)) = some after ∧
      after.connection.contents = .empty := by
  have hRun : ∃ store,
      (ofContents .empty).hold.follow
          ([.nest 0, .held 1 (.addTable "ghost" false),
            .commit 1, .drop 1].map Turn.plain) =
        some store ∧
      store.gate = some 0 ∧
      (store.connection.contents.tableNamed?
        "ghost").isSome ∧
      (store.turn? (.plain (.drop 0))).any
        fun after => after.gate.isNone :=
    exists_of_follow (by decide +kernel)
  rcases hRun with ⟨store, hDuring, hOn, hGhost, hDrop⟩
  rcases (Option.any_eq_true _ _).mp hDrop with
    ⟨after, hLast, hOff⟩
  have hBegin : (ofContents .empty).take? .start none .begin =
      some (.ok (), (ofContents .empty).hold) := rfl
  have hUndone := (uncommitted_hold_is_undone
    (show (ofContents .empty).follow [] = _ from rfl)
    hBegin hDuring hOn).2.2
    (by decide +kernel) (by decide +kernel)
  refine ⟨store, after, hDuring, hGhost, hLast, ?_⟩
  refine (hUndone.2 _ after hLast ?_).1
  rw [Option.isNone_iff_eq_none.mp hOff]
  exact nofun

/-
  An inner scope that outlives the outermost one commits what
  the outermost one has never committed.
-/
theorem outliving_commit_stays :
    (∀ turn ∈ outliving ++ [.commit 1, .drop 1].map Turn.plain,
      turn.act ≠ .commit 0) ∧
    ∃ store,
      (ofContents .empty).follow
          (outliving ++ [.commit 1, .drop 1].map Turn.plain) =
        some store ∧
      store.scopes = [] ∧
      (store.connection.contents.tableNamed?
        "ghost").isSome :=
  ⟨by decide +kernel, exists_of_follow (by decide +kernel)⟩

/- A commit is refused where there is nothing to commit. -/
theorem commit_of_closed
    {hold : Nat}
    (hCount : store.counts hold = 1)
    (hClosed : store.connection.saved = none) :
    (store.commit none hold).1 =
        .error (.store .noTransaction) ∧
      (store.commit none hold).2.connection.contents =
        store.connection.contents := by
  simp [commit, hCount, Connection.commit, hClosed,
    Failure.strike]

/-
  A statement of a hold is undone if no commit has taken
  effect before and, after it, none of the outermost scope
  does and the inner ones commit while that is there.  If a
  commit takes effect at any time, all statements stay.  After
  it, each takes effect at once, and the next commit is
  refused.
-/
theorem statement_is_undone_or_stays
    {contents : Contents}
    {turns first rest : List Turn}
    {free held before next store after : ScopedStore}
    {clock : Clock}
    {failure : Option Failure}
    {turn last : Turn}
    {scope : Nat}
    {asked : Statement}
    (hFree : (ofContents contents).follow turns = some free)
    (hBegin : free.take? clock failure .begin =
      some (.ok (), held))
    (hFirst : held.follow first = some before)
    (hTurn : before.turn? turn = some next)
    (hHeld : turn.act = .held scope asked)
    (hRest : next.follow rest = some store)
    (hOn : store.gate = held.gate)
    (hLast : store.turn? last = some after)
    (hOff : after.gate ≠ held.gate) :
    (before.connection.isOpen = true ↔
      held.StaysOpen first) ∧
    (before.connection.isOpen = true →
      next.Throughout (Inside free.given) rest →
      next.Throughout (Unsettled free.given) rest →
      after.connection.contents = free.connection.contents) ∧
    (¬(held.StaysOpen first ∧ next.StaysOpen rest) →
      after.connection.contents =
        replay rest
          (asked.leaves turn.clock turn.failure
            before.connection.contents)) ∧
    (before.connection.isOpen = false →
      next.connection.durable =
          asked.leaves turn.clock turn.failure
            before.connection.durable ∧
        ∀ handle ∈ store.scopes,
          store.counts handle.hold = 1 →
          (store.commit none handle.hold).1 =
              .error (.store .noTransaction) ∧
            (store.commit none
                handle.hold).2.connection.contents =
              store.connection.contents) := by
  have hOrderly := (Orderly.ofContents contents).follow hFree
  rcases hOrderly.begun hBegin with ⟨hBegun, rfl⟩
  have hStart := hOrderly.turn hBegun
  have hNext := (hStart.follow hFirst).turn hTurn
  rcases hStart.traced (Nat.lt_succ_self _) hFirst hTurn hHeld
    hRest hOn hLast hOff with
    ⟨hBefore, hRan, hKept, hReplayed, hSaved, hUndone⟩
  have hOpen : before.connection.isOpen = true ↔
      free.hold.StaysOpen first := by
    rw [Connection.isOpen, hBefore]
    by_cases hStays : free.hold.StaysOpen first
    · simp only [hStays, if_true, iff_true]
      rfl
    · simp [hStays]
  refine ⟨hOpen, ?_, ?_, ?_⟩
  · intro hIsOpen hInside hUnsettled
    have hStays : next.StaysOpen rest :=
      hInside.both hNext hUnsettled fun _ _ hOrderly =>
        hOrderly.settles_eq_false
    rw [hUndone, Connection.durable, hSaved, if_pos hStays,
      hKept, hBefore, if_pos (hOpen.mp hIsOpen)]
    rfl
  · intro hSettled
    have hOver : store.connection.saved = none := by
      rw [hSaved, hKept, hBefore]
      by_cases hStays : free.hold.StaysOpen first
      · rw [if_neg fun hRestStays =>
          hSettled ⟨hStays, hRestStays⟩]
      · simp [hStays]
    rw [hUndone, Connection.durable, hOver, ← hRan,
      ← hReplayed]
    rfl
  · intro hClosed
    have hNone : before.connection.saved = none := by
      simpa [Connection.isOpen] using hClosed
    refine ⟨?_, ?_⟩
    · simp [Connection.durable, hKept, hNone, hRan]
    · intro handle _ hCount
      refine commit_of_closed hCount ?_
      rw [hSaved, hKept, hNone]
      exact ite_self _

theorem statement_is_undone_or_stays_ghost :
    ∃ store after,
      (ofContents .empty).hold.turn?
          (.plain (.held 0 (.addTable "ghost" false))) =
        some store ∧
      (store.connection.contents.tableNamed?
        "ghost").isSome ∧
      store.turn? (.plain (.drop 0)) = some after ∧
      after.connection.contents = .empty := by
  have hRun : ∃ store,
      (ofContents .empty).hold.follow
          [.plain (.held 0 (.addTable "ghost" false))] =
        some store ∧
      store.gate = some 0 ∧
      (store.connection.contents.tableNamed?
        "ghost").isSome ∧
      (store.turn? (.plain (.drop 0))).any
        fun after => after.gate.isNone :=
    exists_of_follow (by decide +kernel)
  rcases hRun with ⟨store, hTurns, hOn, hGhost, hDrop⟩
  rcases (Option.any_eq_true _ _).mp hDrop with
    ⟨after, hLast, hOff⟩
  rcases Option.bind_eq_some_iff.mp hTurns with
    ⟨next, hTurn, hEnd⟩
  cases hEnd
  have hBegin : (ofContents .empty).take? .start none .begin =
      some (.ok (), (ofContents .empty).hold) := rfl
  have hOver : after.gate ≠ (ofContents .empty).hold.gate := by
    rw [Option.isNone_iff_eq_none.mp hOff]
    exact nofun
  refine ⟨store, after, hTurn, hGhost, hLast, ?_⟩
  exact (statement_is_undone_or_stays
    (show (ofContents .empty).follow [] = _ from rfl) hBegin
    (show ScopedStore.follow _ [] = _ from rfl) hTurn rfl
    (show ScopedStore.follow _ [] = _ from rfl) hOn hLast
    hOver).2.1 rfl trivial trivial

/- What is written after a commit stays without another one. -/
theorem committed_scope_keeps_writing :
    ∃ store,
      (ofContents .empty).follow
          ([.begin, .commit 0,
            .held 0 (.addTable "ghost" false),
            .drop 0].map Turn.plain) =
        some store ∧
      store.scopes = [] ∧
      (store.connection.contents.tableNamed?
        "ghost").isSome :=
  exists_of_follow (by decide +kernel)

end ScopedStore

end SparseTables

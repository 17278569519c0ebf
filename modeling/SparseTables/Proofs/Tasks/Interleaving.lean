import SparseTables.Proofs.Tasks.Duties
import SparseTables.Proofs.Tasks.Going

/-
  This file shows what holds between the turns of tasks that
  share a session.

  While a task removes from the dictionaries the caches may
  hold rows that are gone; when the last such task is done
  they hold rows of the store only.  Slots fit all the time.

  Main declarations:
    * `Crowd.scene`
    * `Crowd.Turns`
    * `Crowd.Razed`
    * `Crowd.Orderly`
    * `Crowd.Orderly.turn_abiding`
    * `Crowd.Orderly.turn_razing`
    * `Crowd.Orderly.take`
    * `Crowd.Orderly.follow`
-/

namespace SparseTables

namespace Session

namespace Crowd

------------------------------------------------------------
-- The scene of a crowd
------------------------------------------------------------

/- What would be left if an open transaction was undone. -/
def committed (crowd : Crowd) : Contents :=
  crowd.shared.store.engine.committed

/- A task could not remove what it was to remove. -/
def Failed (crowd : Crowd) : Prop :=
  ∃ task ∈ crowd.tasks, task.call.isRemoval ∧
    task.error?.isSome

instance (crowd : Crowd) : Decidable crowd.Failed :=
  inferInstanceAs (Decidable (∃ task ∈ crowd.tasks,
    task.call.isRemoval ∧ task.error?.isSome))

/- A task is at a duty. -/
def Razing (crowd : Crowd) (duty : Duty) : Prop :=
  ∃ task ∈ crowd.tasks, task.call.isRemoval ∧
    task.rest.Razes duty

/-
  Nothing is known any more of what belongs to a table: it is
  gone or being removed, or some removal has failed.
-/
def Doomed (crowd : Crowd) (tableId : Int) : Prop :=
  crowd.Failed ∨ crowd.committed.Dropped tableId ∨
    ∃ duty : Duty, duty.Dooms tableId ∧ crowd.Razing duty

/- The scene in which the tasks of a crowd go on. -/
def scene
    (crowd : Crowd)
    (hFormed : crowd.committed.Formed) : Scene where
  contents := crowd.committed
  formed := hFormed
  doomed := crowd.Doomed
  wiped := crowd.Razing .wipe
  doomed_of_wiped hWiped _ :=
    Or.inr (Or.inr ⟨.wipe, trivial, hWiped⟩)

------------------------------------------------------------
-- Tasks that go on
------------------------------------------------------------

variable {crowd : Crowd} {index : Nat} {task : Going}

section Put

variable {rest : Program task.call.Answer} {shared : Shared}

theorem getElem?_put
    (hTask : crowd.tasks[index]? = some task)
    (other : Nat) :
    (crowd.put index rest shared).tasks[other]? =
      if index = other then some ⟨task.call, rest⟩
      else crowd.tasks[other]? := by
  have hIndex := (List.getElem?_eq_some_iff.1 hTask).1
  simp only [put, List.getElem?_set, hIndex, if_true]

/- What one of the tasks is, one of them is still. -/
theorem exists_put
    (hTask : crowd.tasks[index]? = some task)
    {holds : Going → Prop}
    (hThere : ∃ other ∈ crowd.tasks, holds other) :
    holds task ∨
      ∃ other ∈ (crowd.put index rest shared).tasks,
        holds other := by
  rcases hThere with ⟨other, hOther, hHolds⟩
  rcases List.getElem?_of_mem hOther with ⟨place, hPlace⟩
  by_cases hSame : index = place
  · subst hSame
    rw [hTask] at hPlace
    cases hPlace
    exact Or.inl hHolds
  · refine Or.inr ⟨other, ?_, hHolds⟩
    apply List.mem_of_getElem? (i := place)
    rw [getElem?_put hTask, if_neg hSame, hPlace]

theorem mem_put
    (hTask : crowd.tasks[index]? = some task) :
    ⟨task.call, rest⟩ ∈
      (crowd.put index rest shared).tasks := by
  apply List.mem_of_getElem? (i := index)
  rw [getElem?_put hTask, if_pos rfl]

/- What has failed is not a task that goes on. -/
theorem Failed.put
    (hFailed : crowd.Failed)
    (hTask : crowd.tasks[index]? = some task)
    (hNone : task.error? = none) :
    (crowd.put index rest shared).Failed := by
  rcases exists_put hTask hFailed with ⟨-, hError⟩ | hThere
  · simp [hNone] at hError
  · exact hThere

end Put

/-
  At most one task uses the store in a transaction; the store
  holds what that task needs, and all others are apart.
-/
def Turns (crowd : Crowd) (scene : Scene) : Prop :=
  ∃ (holder : Nat) (phase : Phase),
    phase.Agrees crowd.shared.store.engine ∧
    (phase = .apart ∨ holder < crowd.tasks.length) ∧
    ∀ (index : Nat) (task : Going),
      crowd.tasks[index]? = some task →
        task.Abides (if index = holder then phase else .apart)
          scene

/- One task goes on, maybe as the one that has the store. -/
theorem Turns.put
    {rest : Program task.call.Answer}
    {shared : Shared}
    {scene later : Scene}
    {holder : Nat}
    {phase : Phase}
    (hTask : crowd.tasks[index]? = some task)
    (hBecomes : scene.Becomes later)
    (hAgrees : phase.Agrees shared.store.engine)
    (hHolder : phase = .apart ∨ holder < crowd.tasks.length)
    (hHere : Going.Abides ⟨task.call, rest⟩
      (if index = holder then phase else .apart) later)
    (hOthers : ∀ (place : Nat) (other : Going),
      crowd.tasks[place]? = some other → index ≠ place →
        other.Abides
          (if place = holder then phase else .apart) scene) :
    (crowd.put index rest shared).Turns later := by
  refine ⟨holder, phase, hAgrees, ?_, ?_⟩
  · simpa [Crowd.put] using hHolder
  · intro place other hOther
    rw [getElem?_put hTask] at hOther
    by_cases hPlace : index = place
    · subst hPlace
      rw [if_pos rfl, Option.some.injEq] at hOther
      rw [← hOther]
      exact hHere
    · rw [if_neg hPlace] at hOther
      exact (hOthers place other hOther hPlace).later hBecomes

/-
  The store goes along with a task, or is held for another
  one, and then nothing may happen to it.
-/
theorem Turns.go
    {scene : Scene}
    (hTurns : crowd.Turns scene)
    (hTask : crowd.tasks[index]? = some task) :
    ∃ phase, task.Abides phase scene ∧
      (phase.Agrees crowd.shared.store.engine ∧
        (∀ {after : Phase} {later : Scene}
            {rest : Program task.call.Answer}
            {shared : Shared},
          scene.Becomes later →
          Going.Abides ⟨task.call, rest⟩ after later →
          after.Agrees shared.store.engine →
            (crowd.put index rest shared).Turns later) ∨
      phase = .apart ∧
        crowd.shared.store.engine.hold ≠ none ∧
        ∀ {later : Scene} {rest : Program task.call.Answer}
            {shared : Shared},
          scene.Becomes later →
          Going.Abides ⟨task.call, rest⟩ .apart later →
          shared.store.engine = crowd.shared.store.engine →
            (crowd.put index rest shared).Turns later) := by
  rcases hTurns with
    ⟨holder, phase, hAgrees, hHolder, hTasks⟩
  have hHere := hTasks index task hTask
  by_cases hUses : index = holder ∨ phase = .apart
  · have hOthers (place : Nat) (hPlace : index ≠ place) :
        (if place = holder then phase else .apart) =
          .apart := by
      rcases hUses with rfl | rfl
      · exact if_neg (Ne.symm hPlace)
      · exact ite_self _
    have hSame :
        (if index = holder then phase else .apart) = phase :=
      hUses.elim (fun hSame => if_pos hSame)
        fun hApart => by rw [hApart, ite_self]
    rw [hSame] at hHere
    refine ⟨phase, hHere, Or.inl ⟨hAgrees, ?_⟩⟩
    intro after later rest shared hBecomes hAbides hAfter
    have hIndex := (List.getElem?_eq_some_iff.1 hTask).1
    refine .put hTask hBecomes hAfter (Or.inr hIndex)
      ((if_pos rfl).symm ▸ hAbides)
      fun place other hOther hPlace => ?_
    rw [if_neg (Ne.symm hPlace), ← hOthers place hPlace]
    exact hTasks place other hOther
  · rw [not_or] at hUses
    rw [if_neg hUses.1] at hHere
    have hHeld := hAgrees.held hUses.2
    refine ⟨.apart, hHere, Or.inr ⟨rfl, hHeld, ?_⟩⟩
    intro later rest shared hBecomes hAbides hSame
    exact .put hTask hBecomes (hSame ▸ hAgrees) hHolder
      ((if_neg hUses.1).symm ▸ hAbides)
      fun place other hOther _ => hTasks place other hOther

/- A task that begins is apart. -/
theorem Turns.start
    {scene later : Scene}
    (hTurns : crowd.Turns scene)
    (hBecomes : scene.Becomes later)
    {policies : Policies}
    {call : Call} :
    (crowd.start policies call).Turns later := by
  rcases hTurns with
    ⟨holder, phase, hAgrees, hHolder, hTasks⟩
  have hLength : (crowd.start policies call).tasks.length =
      crowd.tasks.length + 1 := by
    simp [Crowd.start]
  refine ⟨holder, phase, hAgrees,
    hHolder.imp_right (by omega), fun place task hTask => ?_⟩
  rcases Nat.lt_or_ge place crowd.tasks.length with
    hOld | hNew
  · rw [Crowd.start, List.getElem?_append_left hOld] at hTask
    exact (hTasks place task hTask).later hBecomes
  · rw [Crowd.start, List.getElem?_append_right hNew]
      at hTask
    have hSame := List.mem_singleton.1
      (List.mem_of_getElem? hTask)
    have hApart :
        (if place = holder then phase else .apart) =
          .apart := by
      split
      · exact hHolder.resolve_right (by omega)
      · rfl
    rw [hSame, hApart]
    exact fun last _ => call.abides policies last

------------------------------------------------------------
-- Between turns
------------------------------------------------------------

/- What holds of a crowd when no task is in a turn. -/
structure Orderly (crowd : Crowd) : Prop where
  formed : crowd.committed.Formed
  turns : crowd.Turns (crowd.scene formed)
  mirrors : crowd.shared.caches.Mirrors crowd.committed ∨
    ∃ duty, crowd.Razing duty
  covers : ∃ whole, (crowd.scene formed).Covers whole ∧
    crowd.shared.caches.Mirrors whole
  fits : crowd.shared.store.engine.Fits (crowd.scene formed)

/-
  What becomes of the scene: a duty goes on, fails, or leaves
  its tables dropped, and rows go only with a duty.
-/
theorem scene_becomes
    {next : Crowd}
    {hFormed : crowd.committed.Formed}
    {hLater : next.committed.Formed}
    (hAges : crowd.committed.Ages next.committed)
    (hFailed : crowd.Failed → next.Failed)
    (hRazing : ∀ duty, crowd.Razing duty →
      next.Razing duty ∨ next.Failed ∨
        ∀ tableId, duty.Dooms tableId →
          tableId ≤ crowd.committed.tables.last →
            next.committed.Dropped tableId)
    (hAttributes :
      ∀ row ∈ crowd.committed.attributes.rows,
        row ∈ next.committed.attributes.rows ∨
          ∃ duty : Duty, duty.Dooms row.tableId ∧
            crowd.Razing duty)
    (hValues : ∀ row ∈ crowd.committed.values.rows,
      row ∈ next.committed.values.rows ∨
        crowd.Razing .wipe) :
    (crowd.scene hFormed).Becomes (next.scene hLater) := by
  have hDoomed (tableId : Int)
      (hGiven : tableId ≤ crowd.committed.tables.last)
      (hDoomed : crowd.Doomed tableId) :
      next.Doomed tableId := by
    rcases hDoomed with hOld | hGone | ⟨duty, hDooms, hOld⟩
    · exact Or.inl (hFailed hOld)
    · exact Or.inr (Or.inl (hGone.later hAges))
    · rcases hRazing duty hOld with hGoes | hFails | hEnds
      · exact Or.inr (Or.inr ⟨duty, hDooms, hGoes⟩)
      · exact Or.inl hFails
      · exact Or.inr (Or.inl (hEnds tableId hDooms hGiven))
  refine ⟨hAges, hDoomed, fun row hRow => ?_,
    fun row hRow => ?_⟩
  · exact (hAttributes row hRow).imp_right fun hDuty =>
      hDoomed row.tableId (hFormed.attribute_le hRow)
        (Or.inr (Or.inr hDuty))
  · exact (hValues row hRow).imp_right
      fun hWipe tableId hGiven => hDoomed tableId hGiven
        (Or.inr (Or.inr ⟨.wipe, trivial, hWipe⟩))

theorem Engine.Fits.later
    {engine : Engine}
    {scene later : Scene}
    (hFits : engine.Fits scene)
    (hBecomes : scene.Becomes later) :
    engine.Fits later :=
  ⟨fun slot hSlot => hBecomes.fits (hFits.current slot hSlot),
    fun slot hSlot => hBecomes.fits (hFits.left slot hSlot)⟩

------------------------------------------------------------
-- Turns of a task at a duty
------------------------------------------------------------

/- The store answers a task that is at a duty. -/
structure Razed
    (crowd : Crowd)
    (index : Nat)
    (duty : Duty)
    {call : Call}
    {asked : Statement}
    (go : Except Error asked.Answer → Program call.Answer)
    (answer : Except Error asked.Answer)
    (after : Shared) : Prop where
  task : crowd.tasks[index]? =
    some ⟨call, .ask (.shared asked) go⟩
  removal : call.isRemoval
  razes : (Program.ask (.shared asked) go).Razes duty
  met : crowd.shared.store.engine.Met
    crowd.shared.store.clock (.shared asked) answer
      after.store.engine

namespace Razed

variable {duty : Duty} {call : Call} {asked : Statement}
variable {go : Except Error asked.Answer →
  Program call.Answer}
variable {answer : Except Error asked.Answer}
variable {after : Shared}

theorem there
    (hRazed : crowd.Razed index duty go answer after) :
    crowd.Razing duty :=
  ⟨_, List.mem_of_getElem? hRazed.task, hRazed.removal,
    hRazed.razes⟩

theorem formed
    (hRazed : crowd.Razed index duty go answer after)
    (hFormed : crowd.committed.Formed) :
    after.store.engine.committed.Formed :=
  hFormed.effect hRazed.met.effect.1 fun slot hSame =>
    absurd hSame (hRazed.razes.allows.ne_addSlot slot)

/- The task may go on with its duty, -/
theorem goes
    (hRazed : crowd.Razed index duty go answer after)
    {other : Duty}
    (hGoes : (go answer).Razes other) :
    (crowd.putSettled index (go answer) after).Razing
      other := by
  refine ⟨_, mem_put hRazed.task, hRazed.removal, ?_⟩
  rw [hGoes.settle]
  exact hGoes

/- or fail, or leave its tables dropped. -/
theorem ends
    (hRazed : crowd.Razed index duty go answer after)
    {outcome : Except Error call.Answer}
    (hSettle : (go answer).settle after.caches =
      (.done outcome, .empty))
    (hEnds : (∃ error, outcome = .error error) ∨
      asked = duty.last ∧ answer.isOk) :
    (crowd.putSettled index (go answer) after).Failed ∨
      ∀ tableId, duty.Dooms tableId →
        tableId ≤ crowd.committed.tables.last →
          after.store.engine.committed.Dropped tableId := by
  rcases hEnds with ⟨error, rfl⟩ | ⟨rfl, hOk⟩
  · refine Or.inl ⟨_, mem_put hRazed.task, hRazed.removal,
      ?_⟩
    rw [hSettle]
    rfl
  · rcases hRazed.met.effect with ⟨-, -, hRuns, -⟩
    rcases hRuns hOk with ⟨given, hRun⟩
    exact Or.inr fun tableId hDooms hGiven =>
      Duty.dropped_of_last hRun hDooms hGiven

theorem razing
    (hRazed : crowd.Razed index duty go answer after)
    {other : Duty}
    (hOther : crowd.Razing other) :
    (crowd.putSettled index (go answer) after).Razing
        other ∨
      (crowd.putSettled index (go answer) after).Failed ∨
      ∀ tableId, other.Dooms tableId →
        tableId ≤ crowd.committed.tables.last →
          after.store.engine.committed.Dropped tableId := by
  rcases exists_put hRazed.task hOther with
    ⟨-, hRazes⟩ | hElse
  · have hSame : crowd.Razed index other go answer after :=
      { hRazed with razes := hRazes }
    rcases hRazes.settled answer after.caches with
      ⟨hGoes, -⟩ | ⟨outcome, hSettle, hEnds⟩
    · exact Or.inl (hSame.goes hGoes)
    · exact Or.inr (hSame.ends hSettle hEnds)
  · exact Or.inl hElse

theorem becomes
    (hRazed : crowd.Razed index duty go answer after)
    (hFormed : crowd.committed.Formed) :
    (crowd.scene hFormed).Becomes
      ((crowd.putSettled index (go answer) after).scene
        (hRazed.formed hFormed)) := by
  rcases hRazed.met.effect with ⟨hEffect, hAges, -⟩
  have hAllows := hRazed.razes.allows
  exact scene_becomes hAges
    (fun hFailed => hFailed.put hRazed.task rfl)
    (fun _ hOther => hRazed.razing hOther)
    (fun row hRow =>
      (hAllows.mem_attributes hEffect hRow).imp_right
        fun hDooms => ⟨duty, hDooms, hRazed.there⟩)
    (fun row hRow =>
      (hAllows.mem_values hEffect hRow).imp_right
        fun hWipe : duty = .wipe => hWipe ▸ hRazed.there)

theorem fits
    (hRazed : crowd.Razed index duty go answer after)
    {scene : Scene}
    (hFits : crowd.shared.store.engine.Fits scene) :
    after.store.engine.Fits scene := by
  refine hRazed.met.fits hFits fun slot hAdds => ?_
  rcases hAdds with hSame | hSame
  · exact absurd (Request.shared.inj hSame)
      (hRazed.razes.allows.ne_addSlot slot)
  · cases hSame

/- Values go only while everything is removed, -/
theorem values
    (hRazed : crowd.Razed index duty go answer after)
    (hGoes : (go answer).Razes duty)
    {row : Value}
    (hRow : row ∈ crowd.committed.values.rows) :
    row ∈ after.store.engine.committed.values.rows ∨
      (crowd.putSettled index (go answer) after).Razing
        .wipe :=
  (hRazed.razes.allows.mem_values hRazed.met.effect.1
    hRow).imp_right fun hWipe : duty = .wipe =>
      hRazed.goes (hWipe ▸ hGoes)

/- and that goes on as long as the task has more to do. -/
theorem wiped
    (hRazed : crowd.Razed index duty go answer after)
    (hGoes : (go answer).Razes duty)
    (hWiped : crowd.Razing .wipe) :
    (crowd.putSettled index (go answer) after).Razing
      .wipe := by
  rcases exists_put hRazed.task hWiped with
    ⟨-, hRazes⟩ | hElse
  · rcases hRazes.settled answer after.caches with
      ⟨hMore, -⟩ | ⟨outcome, hSettle, -⟩
    · exact hRazed.goes hMore
    · rw [hGoes.settle, Prod.mk.injEq] at hSettle
      exact absurd hSettle.1 (hGoes.not_done outcome)
  · exact hElse

/- The task is apart, and stays so. -/
theorem turns
    (hRazed : crowd.Razed index duty go answer after)
    (hFormed : crowd.committed.Formed)
    (hTurns : crowd.Turns (crowd.scene hFormed)) :
    (crowd.putSettled index (go answer) after).Turns
      ((crowd.putSettled index (go answer) after).scene
        (hRazed.formed hFormed)) := by
  have hBecomes := hRazed.becomes hFormed
  rcases hRazed.met.effect with ⟨-, -, -, hFree, hHeld⟩
  have hAbides : Going.Abides
      ⟨call, ((go answer).settle after.caches).1⟩ .apart
      ((crowd.putSettled index (go answer) after).scene
        (hRazed.formed hFormed)) := by
    intro last _
    rcases hRazed.razes.settled answer after.caches with
      ⟨hGoes, hSettle⟩ | ⟨outcome, hSettle, -⟩
    · rw [hSettle]
      exact .of_razes hRazed.removal hGoes
    · rw [hSettle]
      rfl
  rcases hTurns.go hRazed.task with ⟨phase, hTurn, hGo⟩
  rcases hGo with ⟨hAgrees, hPut⟩ | ⟨-, hHolds, hPut⟩
  · have hApart : phase = .apart := by
      rcases hTurn _ (.refl _) with ⟨-, hApart, -⟩ | hAsks
      · exact hApart
      · have hAllowed := (hAsks _ (.refl _)).1
        cases phase with
        | apart => rfl
        | inside | closing => cases hAllowed
    subst hApart
    exact hPut hBecomes hAbides (hFree hAgrees)
  · exact hPut hBecomes hAbides (hHeld hHolds)

end Razed

/- Before the first task begins. -/
theorem orderly_of_atRest
    {shared : Shared}
    (hRest : AtRest shared) :
    (Crowd.of shared).Orderly := by
  rcases shared with
    ⟨⟨⟨contents, hold⟩, clock, faults⟩, caches⟩
  rcases hRest with ⟨hFree, hSound, hMirrors⟩
  dsimp only at hFree hSound hMirrors
  subst hFree
  have hFormed : contents.Formed := hSound.formed
  have hSlots : ∀ slot ∈ contents.slots,
      ((Crowd.of ⟨⟨⟨contents, none⟩, clock, faults⟩,
        caches⟩).scene hFormed).Fits slot := by
    intro slot hSlot
    rcases hSound.slotsFit slot hSlot with
      ⟨attr_, hAttr, value, hValue, hAttrId, hValueId, -,
        hOwner⟩
    exact ⟨hSound.slotItems slot hSlot, fun item hItem hId =>
      ⟨Or.inr ⟨attr_, hAttr, hAttrId, hOwner item hItem hId⟩,
        Or.inr ⟨value, hValue, hValueId⟩⟩⟩
  exact ⟨hFormed, ⟨0, .apart, rfl, Or.inl rfl, nofun⟩,
    Or.inl hMirrors,
    ⟨contents, Scene.covers_contents _, hMirrors⟩,
    ⟨hSlots, hSlots⟩⟩

namespace Orderly

/- A turn of a task that is at no duty. -/
theorem turn_abiding
    (hOrderly : crowd.Orderly)
    {call : Call}
    {rest later : Program call.Answer}
    (hTask : crowd.tasks[index]? = some ⟨call, rest⟩)
    (hNone : ¬(call.isRemoval ∧ ∃ duty, rest.Razes duty))
    {after : Shared}
    (hStep : rest.step? crowd.shared = some (later, after)) :
    (crowd.putSettled index later after).Orderly := by
  rcases hOrderly with
    ⟨hFormed, hTurns, hMirrors, ⟨whole, hCovers, hWhole⟩,
      hFits⟩
  rcases hTurns.go hTask with ⟨phase, hAbides, hGo⟩
  rcases hAbides.step hNone rfl hFits
    (hGo.imp (fun h => h.1) fun h => ⟨h.1, h.2.1⟩) hStep with
    ⟨next, hWent⟩
  have hRazing (duty : Duty) (hRazing : crowd.Razing duty) :
      (crowd.putSettled index later after).Razing duty := by
    rcases exists_put hTask hRazing with
      ⟨hRemoval, hRazes⟩ | hThere
    · exact absurd ⟨hRemoval, duty, hRazes⟩ hNone
    · exact hThere
  have hRetains := hWent.spares.retains
  have hBecomes :
      (crowd.scene hFormed).Becomes
        ((crowd.putSettled index later after).scene
          hWent.spares.formed) :=
    scene_becomes hWent.spares.ages
      (fun hFailed =>
        hFailed.put hTask (Going.error?_of_step hStep))
      (fun duty hOld => Or.inl (hRazing duty hOld))
      (fun row hRow => Or.inl (hRetains.attributes row hRow))
      (fun row hRow => Or.inl (hRetains.values row hRow))
  have hCoversLater := hCovers.later hBecomes
    (fun row hRow => Or.inl (hRetains.values row hRow))
    (hRazing .wipe)
  rcases hWent.settles hBecomes rfl hCoversLater
    (hWhole.retains (Scene.retains_joined _ _)) with
    ⟨hLater, hKept⟩
  refine ⟨hWent.spares.formed, ?_, ?_,
    ⟨_, hCoversLater, hKept⟩,
    Engine.Fits.later hWent.fits hBecomes⟩
  · rcases hGo with ⟨hAgrees, hPut⟩ | ⟨hApart, hHeld, hPut⟩
    · exact hPut hBecomes hLater (hWent.agrees hAgrees)
    · rcases hWent.waits ⟨hApart, hHeld⟩ with ⟨rfl, hSame⟩
      exact hPut hBecomes hLater hSame
  · rcases hMirrors with hMirrors | ⟨duty, hDuty⟩
    · refine Or.inl (hWent.settles hBecomes rfl
        (Scene.covers_contents _) ?_).2
      exact hMirrors.retains hRetains
    · exact Or.inr ⟨duty, hRazing duty hDuty⟩

/- A turn of a task at a duty. -/
theorem turn_razing
    (hOrderly : crowd.Orderly)
    {call : Call}
    {rest later : Program call.Answer}
    (hTask : crowd.tasks[index]? = some ⟨call, rest⟩)
    (hRemoval : call.isRemoval)
    {duty : Duty}
    (hRazes : rest.Razes duty)
    {after : Shared}
    (hStep : rest.step? crowd.shared = some (later, after)) :
    (crowd.putSettled index later after).Orderly := by
  rcases hOrderly with
    ⟨hFormed, hTurns, -, ⟨whole, hCovers, hWhole⟩, hFits⟩
  rcases hRazes.exists_ask with ⟨asked, go, rfl⟩
  rcases Program.met_of_step hStep with
    ⟨answer, rfl, hCaches, hMet⟩
  have hRazed : crowd.Razed index duty go answer after :=
    ⟨hTask, hRemoval, hRazes, hMet⟩
  have hBecomes := hRazed.becomes hFormed
  have hTurnsLater := hRazed.turns hFormed hTurns
  have hFitsLater := Engine.Fits.later (hRazed.fits hFits)
    hBecomes
  rcases hRazes.settled answer after.caches with
    ⟨hGoes, hSettle⟩ | ⟨outcome, hSettle, -⟩
  · have hCoversLater := hCovers.later hBecomes
      (fun row hRow => hRazed.values hGoes hRow)
      (hRazed.wiped hGoes)
    refine ⟨hRazed.formed hFormed, hTurnsLater,
      Or.inr ⟨duty, hRazed.goes hGoes⟩,
      ⟨_, hCoversLater, ?_⟩, hFitsLater⟩
    change ((go answer).settle after.caches).2.Mirrors _
    rw [hSettle, hCaches]
    exact hWhole.retains (Scene.retains_joined _ _)
  · have hEmpty (contents : Contents) :
        ((go answer).settle after.caches).2.Mirrors
          contents := by
      rw [hSettle]
      exact .empty contents
    exact ⟨hRazed.formed hFormed, hTurnsLater,
      Or.inl (hEmpty _),
      ⟨_, Scene.covers_contents _, hEmpty _⟩, hFitsLater⟩

/- A task begins. -/
theorem start
    (hOrderly : crowd.Orderly)
    (policies : Policies)
    (call : Call) :
    (crowd.start policies call).Orderly := by
  rcases hOrderly with
    ⟨hFormed, hTurns, hMirrors, ⟨whole, hCovers, hWhole⟩,
      hFits⟩
  have hStays
      {holds : Going → Prop}
      (hThere : ∃ task ∈ crowd.tasks, holds task) :
      ∃ task ∈ (crowd.start policies call).tasks,
        holds task :=
    hThere.imp fun _ hTask =>
      ⟨List.mem_append_left _ hTask.1, hTask.2⟩
  have hBecomes :
      (crowd.scene hFormed).Becomes
        ((crowd.start policies call).scene hFormed) :=
    scene_becomes (.refl _) hStays
      (fun _ hRazing => Or.inl (hStays hRazing))
      (fun _ hRow => Or.inl hRow) fun _ hRow => Or.inl hRow
  refine ⟨hFormed, hTurns.start hBecomes, ?_,
    ⟨_, hCovers.later hBecomes (fun _ hRow => Or.inl hRow)
      hStays, hWhole.retains (Scene.retains_joined _ _)⟩,
    Engine.Fits.later hFits hBecomes⟩
  exact hMirrors.imp_right fun ⟨duty, hRazing⟩ =>
    ⟨duty, hStays hRazing⟩

/- Every choice but that of a single step. -/
theorem take
    (hOrderly : crowd.Orderly)
    {choice : Choice}
    (hWhole : choice.IsWhole)
    {next : Crowd}
    (hTake : crowd.take choice = some next) :
    next.Orderly := by
  cases choice with
  | start policies call =>
      cases hTake
      exact hOrderly.start policies call
  | step index => cases hWhole
  | turn index =>
      rcases turn?_eq_some hTake with
        ⟨⟨call, rest⟩, later, shared, hTask, hStep, rfl⟩
      by_cases hDuty : call.isRemoval ∧
          ∃ duty, rest.Razes duty
      · rcases hDuty with ⟨hRemoval, duty, hRazes⟩
        exact hOrderly.turn_razing hTask hRemoval hRazes hStep
      · exact hOrderly.turn_abiding hTask hDuty hStep
  | setClock clock =>
      cases hTake
      exact { hOrderly with }
  | setFaults faults =>
      cases hTake
      exact { hOrderly with }

theorem follow
    (hOrderly : crowd.Orderly)
    {choices : List Choice}
    (hWhole : ∀ choice ∈ choices, choice.IsWhole)
    {last : Crowd}
    (hFollow : crowd.follow choices = some last) :
    last.Orderly := by
  induction choices generalizing crowd with
  | nil =>
      cases hFollow
      exact hOrderly
  | cons choice rest ih =>
      rcases List.forall_mem_cons.1 hWhole with
        ⟨hFirst, hRest⟩
      rcases Option.bind_eq_some_iff.1 hFollow with
        ⟨next, hTake, hLater⟩
      exact ih (hOrderly.take hFirst hTake) hRest hLater

end Orderly

end Crowd

end Session

end SparseTables

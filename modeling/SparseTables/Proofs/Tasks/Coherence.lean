import SparseTables.Proofs.Session.Outcomes
import SparseTables.Proofs.Tasks.Interleaving

/-
  This file states what the caches of a session hold when all
  of its tasks have come to their ends.

  As long as a task keeps at once what the store answers, the
  caches hold rows of the store.  If it may be overtaken in
  between, a row can be kept that has been removed, and after
  the caches were cleared.

  Main declarations:
    * `Crowd.Orderly.not_razing_of_isOver`
    * `Crowd.Orderly.committed_of_isOver`
    * `Crowd.Orderly.mirrors_of_isOver`
    * `Crowd.caches_mirror_after_turns`
    * `Crowd.caches_outlast_drop`
-/

namespace SparseTables

namespace Session

namespace Crowd

variable {crowd : Crowd}

------------------------------------------------------------
-- When all tasks are done
------------------------------------------------------------

/- A task that has come to its end is done. -/
theorem exists_done
    (hOver : crowd.isOver = true)
    {task : Going}
    (hTask : task ∈ crowd.tasks) :
    ∃ outcome, task.rest = .done outcome := by
  have hEnd := List.all_eq_true.1 hOver task hTask
  unfold Going.isOver at hEnd
  split at hEnd
  · exact ⟨_, by assumption⟩
  · cases hEnd

namespace Orderly

/- No task is at a duty then, -/
theorem not_razing_of_isOver
    (hOver : crowd.isOver = true)
    (duty : Duty) :
    ¬crowd.Razing duty := by
  rintro ⟨task, hTask, -, hRazes⟩
  rcases exists_done hOver hTask with ⟨outcome, hDone⟩
  rw [hDone] at hRazes
  cases hRazes

/- and none is in a transaction. -/
theorem free_of_isOver
    (hOrderly : crowd.Orderly)
    (hOver : crowd.isOver = true) :
    crowd.shared.store.engine.hold = none := by
  rcases hOrderly.turns with
    ⟨holder, phase, hAgrees, hHolder, hTasks⟩
  suffices hApart : phase = .apart by
    subst hApart
    exact hAgrees
  rcases hHolder with hApart | hHolder
  · exact hApart
  · have hTask := List.getElem?_eq_getElem hHolder
    rcases exists_done hOver (List.getElem_mem hHolder) with
      ⟨outcome, hDone⟩
    have hEnd := hTasks holder _ hTask _ (.refl _)
    rw [hDone, if_pos rfl] at hEnd
    exact hEnd

/- What is committed is all there is. -/
theorem committed_of_isOver
    (hOrderly : crowd.Orderly)
    (hOver : crowd.isOver = true) :
    crowd.committed = crowd.contents := by
  simp [committed, contents, Engine.committed,
    hOrderly.free_of_isOver hOver]

/- No row is kept then that is gone. -/
theorem mirrors_of_isOver
    (hOrderly : crowd.Orderly)
    (hOver : crowd.isOver = true) :
    crowd.shared.caches.Mirrors crowd.contents := by
  rw [← hOrderly.committed_of_isOver hOver]
  rcases hOrderly.mirrors with hMirrors | ⟨duty, hRazing⟩
  · exact hMirrors
  · exact absurd hRazing (not_razing_of_isOver hOver duty)

end Orderly

/-
  Tasks share a session, and take their turns in any order.
  When no call is in progress every row that is kept is a row
  of the store.
-/
theorem caches_mirror_after_turns
    {shared : Shared}
    (hReachable : Reachable shared)
    {choices : List Choice}
    (hWhole : ∀ choice ∈ choices, choice.IsWhole)
    (hFollow : (Crowd.of shared).follow choices =
      some crowd)
    (hOver : crowd.isOver = true) :
    crowd.shared.caches.Mirrors crowd.contents :=
  ((orderly_of_atRest hReachable.atRest).follow hWhole
    hFollow).mirrors_of_isOver hOver

/- A store with a table. -/
def withTable : Shared :=
  ((createTable default "t" false).advance
    Moment.new.shared).2

theorem reachable_withTable : Reachable withTable :=
  Reachable.after_call .refl default (.createTable "t" false)

/- A table is dropped while another task looks for it. -/
def dropTurns : List Choice :=
  [.start default (.dropTable "t"),
    .start default (.get ⟨"t", [.text "k"]⟩),
    .turn 0, .turn 1, .turn 0, .turn 1] ++
      List.replicate 2 (.turn 0) ++
      [.turn 1] ++ List.replicate 4 (.turn 0)

/- The table is found and kept in the middle of the drop. -/
theorem caches_mirror_after_drop :
    ∃ crowd,
      (Crowd.of withTable).follow dropTurns = some crowd ∧
      crowd.isOver = true ∧
      crowd.tasks.map Going.error? = [none, none] ∧
      crowd.contents.tables.rows = [] ∧
      crowd.shared.caches.Mirrors crowd.contents := by
  have hRun :
      ∃ crowd ∈ (Crowd.of withTable).follow dropTurns,
      crowd.isOver = true ∧
      crowd.tasks.map Going.error? = [none, none] ∧
      crowd.contents.tables.rows = [] := by
    decide +kernel
  rcases hRun with ⟨crowd, hFollow, hOver, hErrors, hEmpty⟩
  exact ⟨crowd, hFollow, hOver, hErrors, hEmpty,
    caches_mirror_after_turns reachable_withTable
      (by decide) hFollow hOver⟩

/-
  The same calls, but the task that looks for the table is
  overtaken: the store has answered, and the whole table is
  dropped before the answer is kept.
-/
def overtaking : List Choice :=
  [.start default (.dropTable "t"), .step 0,
    .start default (.get ⟨"t", [.text "k"]⟩)] ++
      List.replicate 2 (.step 1) ++
      List.replicate 10 (.step 0) ++
      List.replicate 3 (.step 1)

/- Then both succeed, and a table is kept that is gone. -/
theorem caches_outlast_drop :
    Reachable withTable ∧
    ∃ crowd,
      (Crowd.of withTable).follow overtaking = some crowd ∧
      crowd.isOver = true ∧
      crowd.tasks.map Going.error? = [none, none] ∧
      crowd.contents.tables.rows = [] ∧
      crowd.shared.caches.tables.get? "t" =
        some ⟨1, "t", false⟩ ∧
      ¬crowd.shared.caches.Mirrors crowd.contents := by
  have hRun :
      ∃ crowd ∈ (Crowd.of withTable).follow overtaking,
      crowd.isOver = true ∧
      crowd.tasks.map Going.error? = [none, none] ∧
      crowd.contents.tables.rows = [] ∧
      crowd.shared.caches.tables.get? "t" =
        some ⟨1, "t", false⟩ := by
    decide +kernel
  rcases hRun with
    ⟨crowd, hFollow, hOver, hErrors, hEmpty, hKept⟩
  refine ⟨reachable_withTable, crowd, hFollow, hOver, hErrors,
    hEmpty, hKept, fun hMirrors => ?_⟩
  have hRow := (hMirrors.tables.get?_eq_some hKept).1
  rw [hEmpty] at hRow
  cases hRow

end Crowd

end Session

end SparseTables

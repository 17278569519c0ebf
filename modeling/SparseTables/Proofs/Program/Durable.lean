import SparseTables.Proofs.Program.Runs
import SparseTables.Proofs.Program.Trouble

/-
  This file follows what would be left if everything that is
  not committed was undone.  With every step of any program
  these contents only age: no identity is given out twice.

  Main declarations:
    * `Engine.Steady`
    * `Engine.Advances`
    * `Engine.perform_advances`
    * `Program.step_advances`
-/

namespace SparseTables

------------------------------------------------------------
-- Effects on the store
------------------------------------------------------------

namespace Engine

variable {engine : Engine}

/- What a transaction has made only aged what it began with. -/
def Steady (engine : Engine) : Prop :=
  ∀ hold ∈ engine.hold, ∀ saved ∈ hold.saved,
    saved.Ages engine.contents

/- What was committed ages, and steadiness is kept. -/
def Advances (before after : Engine) : Prop :=
  after.Steady ∧ before.committed.Ages after.committed

theorem steady_of_free
    (contents : Contents) :
    (Engine.mk contents none).Steady := by
  simp [Steady]

theorem Advances.refl
    (hSteady : engine.Steady) :
    engine.Advances engine :=
  ⟨hSteady, .refl _⟩

theorem Advances.trans
    {first second third : Engine}
    (hFirst : first.Advances second)
    (hSecond : second.Advances third) :
    first.Advances third :=
  ⟨hSecond.1, hFirst.2.trans hSecond.2⟩

/- A transaction keeps what it will restore. -/
theorem statement_advances
    (hSteady : engine.Steady)
    (clock : Clock)
    (asked : Statement) :
    engine.Advances (engine.statement clock asked).2 := by
  unfold statement
  split
  case h_2 => exact .refl hSteady
  rename_i answer after hRun
  have hAges := Statement.run_ages hRun
  refine ⟨fun hold hHold saved hSaved =>
    (hSteady hold hHold saved hSaved).trans hAges, ?_⟩
  rcases engine with ⟨contents, _ | ⟨further, _ | saved⟩⟩
  · exact hAges
  · exact hAges
  · exact .refl saved

/- A commit makes the contents what would be left. -/
theorem commit_advances
    (hSteady : engine.Steady) :
    engine.Advances engine.commit.2 := by
  rcases engine with
    ⟨contents, _ | ⟨_ | further, _ | saved⟩⟩
  case some.zero.some =>
    refine ⟨?_, hSteady _ rfl saved rfl⟩
    intro _ hSame _ hPost
    cases hSame
    cases hPost
  all_goals exact .refl hSteady

theorem nest_advances
    (hSteady : engine.Steady) :
    engine.Advances engine.nest := by
  rcases engine with ⟨contents, _ | ⟨further, saved⟩⟩
  · exact .refl hSteady
  · refine ⟨?_, .refl _⟩
    intro _ hSame saved hSaved
    cases hSame
    exact hSteady _ rfl saved hSaved

/- The last scope leaves what was committed. -/
theorem release_advances
    (hSteady : engine.Steady) :
    engine.Advances engine.release := by
  rcases engine with ⟨contents, _ | ⟨_ | further, saved⟩⟩
  · exact .refl hSteady
  · exact ⟨steady_of_free _, .refl _⟩
  · refine ⟨?_, .refl _⟩
    intro _ hSame saved hSaved
    cases hSame
    exact hSteady _ rfl saved hSaved

/- A transaction begins with the contents as they are. -/
theorem begin_advances
    (hFree : engine.blocks .begin = false) :
    engine.Advances engine.begin := by
  rcases engine with ⟨contents, _ | hold⟩
  · refine ⟨?_, .refl contents⟩
    intro _ hSame _ hPost
    cases hSame
    cases hPost
    exact .refl contents
  · simp [blocks] at hFree

theorem perform_advances
    (hSteady : engine.Steady)
    (clock : Clock)
    {request : Request}
    (hFree : engine.blocks request = false) :
    engine.Advances (engine.perform clock request).2 := by
  cases request with
  | shared asked => exact statement_advances hSteady clock asked
  | held asked => exact statement_advances hSteady clock asked
  | begin => exact begin_advances hFree
  | nest => exact nest_advances hSteady
  | commit => exact commit_advances hSteady
  | release => exact release_advances hSteady

end Engine

------------------------------------------------------------
-- Steps of programs
------------------------------------------------------------

theorem Store.perform_advances
    {store : Store}
    (hSteady : store.engine.Steady)
    {request : Request}
    (hFree : store.engine.blocks request = false)
    (lost : Option Error) :
    store.engine.Advances
      (store.perform request lost).2.engine := by
  have hDone := Engine.perform_advances hSteady store.clock
    hFree
  unfold Store.perform
  cases hPerform :
      store.engine.perform store.clock request with
  | mk answer engine =>
      rw [hPerform] at hDone
      dsimp only
      split
      · dsimp only
        split
        · exact hDone.trans
            (Engine.release_advances hDone.1)
        · exact hDone
      · exact hDone

/- Every step of a program ages what was committed. -/
theorem Program.step_advances
    {α : Type}
    {shared after : Shared}
    {program later : Program α}
    (hSteady : shared.store.engine.Steady)
    (hStep : program.step? shared = some (later, after)) :
    shared.store.engine.Advances after.store.engine := by
  cases program with
  | done outcome => simp [step?] at hStep
  | cached update next =>
      simp only [step?, Option.some.injEq,
        Prod.mk.injEq] at hStep
      rw [← hStep.2]
      exact .refl hSteady
  | ask request next =>
      have hMeet :
          (shared.store.meet request).2.engine =
            shared.store.engine :=
        shared.store.engine_meet request
      simp only [step?] at hStep
      split at hStep
      · simp only [Option.some.injEq, Prod.mk.injEq] at hStep
        rw [← hStep.2, hMeet]
        exact .refl hSteady
      · split at hStep
        · cases hStep
        · rename_i hFree
          simp only [Option.some.injEq,
            Prod.mk.injEq] at hStep
          rw [← hStep.2, ← hMeet]
          exact Store.perform_advances (hMeet ▸ hSteady)
            (by simpa using hFree) _

end SparseTables

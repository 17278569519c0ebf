import SparseTables.Proofs.Program.Ending

/-
  This file shows what a program keeps, step by step and
  whatever fails: what the statement keeps that it makes next,
  at the time of the clock.

  Unlike a run to the end, a step may meet a store that fails
  or that is held for another transaction.

  Main declarations:
    * `Engine.Keeps.request`
    * `Program.statement?`
    * `Program.keeps_step`
    * `Program.clock_of_step`
    * `Program.Asks.step`
-/

namespace SparseTables

------------------------------------------------------------
-- Requests
------------------------------------------------------------

/- The statement of a request, if it has one. -/
def Request.statement? : Request → Option Statement
  | shared asked | held asked => some asked
  | _ => none

namespace Engine.Keeps

variable {such : Contents → Prop} {engine : Engine}

theorem nest (hEngine : engine.Keeps such) :
    engine.nest.Keeps such := by
  refine ⟨hEngine.contents, fun hold hHold => ?_⟩
  rcases Option.map_eq_some_iff.1 hHold with
    ⟨before, hBefore, rfl⟩
  exact hEngine.saved before hBefore

theorem release (hEngine : engine.Keeps such) :
    engine.release.Keeps such := by
  rcases engine with
    ⟨contents, _ | ⟨_ | further, saved⟩⟩
  · exact hEngine
  · refine ⟨?_, by rintro _ ⟨⟩⟩
    cases saved with
    | none => exact hEngine.contents
    | some saved => exact hEngine.saved _ rfl saved rfl
  · refine ⟨hEngine.contents, ?_⟩
    rintro _ ⟨⟩
    exact hEngine.saved ⟨further + 1, saved⟩ rfl

theorem commit (hEngine : engine.Keeps such) :
    engine.commit.2.Keeps such := by
  rcases engine with
    ⟨contents, _ | ⟨_ | further, _ | saved⟩⟩
  case some.zero.some =>
    refine ⟨hEngine.contents, ?_⟩
    rintro _ ⟨⟩ _ ⟨⟩
  all_goals exact hEngine

/- A request keeps what its statement keeps. -/
theorem request
    (hEngine : engine.Keeps such)
    {clock : Clock}
    {request : Request}
    (hKeeps : ∀ asked ∈ request.statement?,
      asked.KeepsAt clock such) :
    (engine.perform clock request).2.Keeps such := by
  cases request with
  | shared asked | held asked =>
      exact (hEngine.statement (hKeeps asked rfl)).2
  | begin =>
      refine ⟨hEngine.contents, ?_⟩
      rintro _ ⟨⟩ _ ⟨⟩
      exact hEngine.contents
  | nest => exact hEngine.nest
  | commit => exact hEngine.commit
  | release => exact hEngine.release

end Engine.Keeps

namespace Store

variable {such : Contents → Prop} {store : Store}

/- A lost answer is that to a request that was met. -/
theorem keeps_perform
    (hEngine : store.engine.Keeps such)
    {request : Request}
    (hKeeps : ∀ asked ∈ request.statement?,
      asked.KeepsAt store.clock such)
    (lost : Option Error) :
    (store.perform request lost).2.engine.Keeps such := by
  have hDone := hEngine.request hKeeps
  unfold perform
  rcases hPerform :
    store.engine.perform store.clock request with
    ⟨answer, engine⟩
  rw [hPerform] at hDone
  dsimp only
  split
  · dsimp only
    split
    · exact hDone.release
    · exact hDone
  · exact hDone

/- No request sets the clock. -/
theorem clock_meet (store : Store) (request : Request) :
    (store.meet request).2.clock = store.clock := by
  unfold meet
  cases store.engine.kind? request with
  | none => rfl
  | some kind => rfl

theorem clock_perform
    (store : Store)
    (request : Request)
    (lost : Option Error) :
    (store.perform request lost).2.clock = store.clock := by
  unfold perform
  dsimp only
  split <;> rfl

end Store

------------------------------------------------------------
-- Steps
------------------------------------------------------------

namespace Program

variable {α : Type}
variable {such : Contents → Prop}
variable {program later : Program α} {shared after : Shared}

/- The statement that a program makes next, if it is one. -/
def statement? : Program α → Option Statement
  | ask request _ => request.statement?
  | _ => none

/- A step leaves the store as it is, or as a request does. -/
theorem store_of_step
    (hStep : program.step? shared = some (later, after)) :
    (after.store.engine = shared.store.engine ∧
      after.store.clock = shared.store.clock) ∨
    ∃ (request : Request) (store : Store)
        (lost : Option Error),
      program.statement? = request.statement? ∧
      store.engine = shared.store.engine ∧
      store.clock = shared.store.clock ∧
      after.store = (store.perform request lost).2 := by
  cases program with
  | done outcome => simp [step?] at hStep
  | cached update next =>
      cases hStep
      exact .inl ⟨rfl, rfl⟩
  | ask request next =>
      have hEngine := shared.store.engine_meet request
      have hClock := shared.store.clock_meet request
      simp only [step?] at hStep
      split at hStep
      · cases hStep
        exact .inl ⟨hEngine, hClock⟩
      · split at hStep
        · cases hStep
        · cases hStep
          exact .inr ⟨request, _, _, rfl, hEngine, hClock,
            rfl⟩

/- A step keeps what the statement keeps that it makes. -/
theorem keeps_step
    (hEngine : shared.store.engine.Keeps such)
    (hKeeps : ∀ asked ∈ program.statement?,
      asked.KeepsAt shared.store.clock such)
    (hStep : program.step? shared = some (later, after)) :
    after.store.engine.Keeps such := by
  rcases store_of_step hStep with ⟨hSame, -⟩ |
    ⟨request, store, lost, hNext, hSame, hClock, hStore⟩
  · rwa [hSame]
  · rw [hStore]
    rw [← hSame] at hEngine
    rw [hNext, ← hClock] at hKeeps
    exact Store.keeps_perform hEngine hKeeps lost

theorem clock_of_step
    (hStep : program.step? shared = some (later, after)) :
    after.store.clock = shared.store.clock := by
  rcases store_of_step hStep with ⟨-, hClock⟩ |
    ⟨request, store, lost, -, -, hClock, hStore⟩
  · exact hClock
  · rw [hStore, Store.clock_perform, hClock]

variable {may : Statement → Prop} {last : Phase → Prop}
variable {phase : Phase}

/- A program that is bound makes no other statement next. -/
theorem Asks.statement
    (hAsks : program.Asks may last phase)
    {asked : Statement}
    (hAsked : asked ∈ program.statement?) :
    may asked := by
  cases program with
  | done outcome => cases hAsked
  | cached update next => cases hAsked
  | ask request next =>
      have hSuits := hAsks.1
      cases request <;> cases hAsked <;> cases phase <;>
        first | exact hSuits | cases hSuits

/-
  A step of a program that is bound to some statements keeps
  what all of them keep, and so does what is left of it.
-/
theorem Asks.step
    (hAsks : program.Asks may last phase)
    (hKeeps : ∀ asked, may asked → asked.Keeps such)
    (hEngine : shared.store.engine.Keeps such)
    (hStep : program.step? shared = some (later, after)) :
    after.store.engine.Keeps such ∧
      ∃ phase, later.Asks may last phase := by
  refine ⟨keeps_step hEngine (fun asked hAsked =>
    hKeeps asked (hAsks.statement hAsked) _) hStep, ?_⟩
  cases program with
  | done outcome => simp [step?] at hStep
  | cached update next =>
      cases hStep
      exact ⟨phase, hAsks _⟩
  | ask request next =>
      rcases step?_ask_eq_some hStep with
        ⟨answer, store, rfl, -⟩
      exact ⟨_, hAsks.2 answer⟩

end Program

end SparseTables

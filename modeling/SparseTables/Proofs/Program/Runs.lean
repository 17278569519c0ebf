import SparseTables.Script.Store

/-
  This file follows programs request by request.

  A step is one request or one use of the caches.  A program
  runs to an end if its steps finish without waiting; then
  an invariant holds of everything that it passes, and a
  postcondition of its outcome.

  Main declarations:
    * `Program.step?`
    * `Program.Visits`
    * `Program.Runs`
    * `Program.Runs.andThen`
    * `Program.Runs.advance`
-/

namespace SparseTables

/- Whether a request fails is decided before it is made. -/
theorem Store.engine_meet
    (store : Store)
    (request : Request) :
    (store.meet request).2.engine = store.engine := by
  unfold meet
  cases store.engine.kind? request with
  | none => rfl
  | some kind => rfl

namespace Program

variable {α β : Type}

------------------------------------------------------------
-- Steps
------------------------------------------------------------

/- One request or one use of the caches, unless it waits. -/
def step? (shared : Shared) :
    Program α → Option (Program α × Shared)
  | done _ => none
  | cached update next =>
      let caches := update shared.caches
      some (next caches, { shared with caches })
  | ask request next =>
      let (failure, store) := shared.store.meet request
      match failure with
      | some ⟨false, error⟩ =>
          some (next (.error error), { shared with store })
      | other =>
          if store.engine.blocks request then
            none
          else
            let (answer, store) :=
              store.perform request (other.map Failure.error)
            some (next answer, { shared with store })

/- A request makes a step, unless it waits. -/
theorem step?_ask_eq_some
    {shared after : Shared}
    {request : Request}
    {next : Except Error request.Answer → Program α}
    {later : Program α}
    (hStep : (ask request next).step? shared =
      some (later, after)) :
    ∃ answer store, later = next answer ∧
      after = { shared with store } ∧
      (ask request next).advance shared =
        (next answer).advance { shared with store } ∧
      ∀ {β : Type} (go : Except Error request.Answer →
          Program β),
        (ask request go).step? shared =
          some (go answer, { shared with store }) := by
  rcases hMeet : shared.store.meet request with
    ⟨failure, store⟩
  simp only [step?, advance, hMeet] at hStep ⊢
  by_cases hBlocks : store.engine.blocks request = true
  · -- Only a request that is refused does not wait.
    rcases failure with _ | ⟨_ | _, error⟩
    · simp [hBlocks] at hStep
    · cases hStep
      exact ⟨_, _, rfl, rfl, rfl, fun _ => rfl⟩
    · simp [hBlocks] at hStep
  · rcases failure with _ | ⟨_ | _, error⟩
    all_goals
      simp only [hBlocks] at hStep ⊢
      cases hStep
      exact ⟨_, _, rfl, rfl, rfl, fun _ => rfl⟩

/- A step is the first part of running a program. -/
theorem advance_of_step
    {shared after : Shared}
    {program later : Program α}
    (hStep : program.step? shared = some (later, after)) :
    program.advance shared = later.advance after := by
  cases program with
  | done outcome => simp [step?] at hStep
  | cached update next =>
      simp only [step?, Option.some.injEq,
        Prod.mk.injEq] at hStep
      rw [advance, hStep.1, hStep.2]
  | ask request next =>
      rcases step?_ask_eq_some hStep with
        ⟨answer, store, rfl, rfl, hAdvance, -⟩
      exact hAdvance

/- A step of a program is one of the sequence it begins. -/
theorem step_andThen
    {shared after : Shared}
    {program later : Program α}
    (next : Except Error α → Program β)
    (hStep : program.step? shared = some (later, after)) :
    (program.andThen next).step? shared =
      some (later.andThen next, after) := by
  cases program with
  | done outcome => simp [step?] at hStep
  | cached update go =>
      simp only [step?, Option.some.injEq,
        Prod.mk.injEq] at hStep
      simp [andThen, step?, ← hStep.1, ← hStep.2]
  | ask request go =>
      rcases step?_ask_eq_some hStep with
        ⟨answer, store, rfl, rfl, -, hSteps⟩
      exact hSteps fun answer => (go answer).andThen next

/- What a program passes from a state on. -/
inductive Visits :
    Program α → Shared → Shared → Prop where
  | here (program : Program α) (shared : Shared) :
      Visits program shared shared
  | later
      {program rest : Program α}
      {shared next after : Shared}
      (hStep : program.step? shared = some (rest, next))
      (hLater : Visits rest next after) :
      Visits program shared after

------------------------------------------------------------
-- Runs
------------------------------------------------------------

variable {inv : Shared → Prop}

/-
  A program runs to an end; the invariant holds all along,
  and the postcondition at the end.
-/
inductive Runs
    (inv : Shared → Prop)
    (post : Except Error α → Shared → Prop) :
    Program α → Shared → Prop where
  | done
      {outcome : Except Error α}
      {shared : Shared}
      (hInv : inv shared)
      (hPost : post outcome shared) :
      Runs inv post (done outcome) shared
  | step
      {program later : Program α}
      {shared after : Shared}
      (hInv : inv shared)
      (hStep : program.step? shared = some (later, after))
      (hLater : Runs inv post later after) :
      Runs inv post program shared

namespace Runs

/- What runs to an end is there or takes a step. -/
theorem done_or_step
    {post : Except Error α → Shared → Prop}
    {program : Program α}
    {shared : Shared}
    (hRuns : program.Runs inv post shared) :
    (∃ outcome, program = Program.done outcome ∧
      post outcome shared) ∨
    ∃ later after,
      program.step? shared = some (later, after) ∧
        later.Runs inv post after := by
  cases hRuns with
  | done _ hPost => exact Or.inl ⟨_, rfl, hPost⟩
  | step _ hStep hLater =>
      exact Or.inr ⟨_, _, hStep, hLater⟩

/- What runs to an end does so when it is run. -/
theorem advance
    {post : Except Error α → Shared → Prop}
    {program : Program α}
    {shared : Shared}
    (hRuns : program.Runs inv post shared) :
    ∃ outcome after,
      program.advance shared = (.finished outcome, after) ∧
        inv after ∧ post outcome after := by
  induction hRuns with
  | done hInv hPost =>
      exact ⟨_, _, rfl, hInv, hPost⟩
  | step hInv hStep hLater ih =>
      rw [advance_of_step hStep]
      exact ih

/- The invariant holds of everything that is passed. -/
theorem visits
    {post : Except Error α → Shared → Prop}
    {program : Program α}
    {shared after : Shared}
    (hRuns : program.Runs inv post shared)
    (hVisits : program.Visits shared after) :
    inv after := by
  induction hVisits with
  | here program shared =>
      cases hRuns with
      | done hInv _ => exact hInv
      | step hInv _ _ => exact hInv
  | later hStep _ ih =>
      cases hRuns with
      | done _ _ => simp [step?] at hStep
      | step _ hSame hLater =>
          rw [hStep] at hSame
          cases hSame
          exact ih hLater

theorem mono
    {inv' : Shared → Prop}
    {post post' : Except Error α → Shared → Prop}
    {program : Program α}
    {shared : Shared}
    (hRuns : program.Runs inv post shared)
    (hInv : ∀ after, inv after → inv' after)
    (hPost : ∀ outcome after, inv after →
      post outcome after → post' outcome after) :
    program.Runs inv' post' shared := by
  induction hRuns with
  | done hHere hEnd =>
      exact .done (hInv _ hHere) (hPost _ _ hHere hEnd)
  | step hHere hStep _ ih =>
      exact .step (hInv _ hHere) hStep ih

/- A sequence runs if each of its parts does. -/
theorem andThen
    {mid : Except Error α → Shared → Prop}
    {post : Except Error β → Shared → Prop}
    {program : Program α}
    {next : Except Error α → Program β}
    {shared : Shared}
    (hFirst : program.Runs inv mid shared)
    (hNext : ∀ outcome after, inv after →
      mid outcome after →
        (next outcome).Runs inv post after) :
    (program.andThen next).Runs inv post shared := by
  induction hFirst with
  | done hInv hMid =>
      exact hNext _ _ hInv hMid
  | step hInv hStep _ ih =>
      exact .step hInv (step_andThen next hStep) ih

end Runs

end Program

end SparseTables

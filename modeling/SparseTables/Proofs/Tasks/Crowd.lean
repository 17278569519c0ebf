import SparseTables.Proofs.Session.Histories

/-
  This file defines tasks that share a session: each makes one
  call, and the requests of their calls reach the store in any
  order.

  A step of a task is one request or one use of the caches.  A
  turn is a step with all uses of the caches that follow it,
  so in a turn a task keeps what the store has just answered.
  A statement outside of transactions has the store for
  itself only until it is answered: between the answer and
  the use of the caches another task can take steps, unless
  tasks only go on by turns.

  Main declarations:
    * `Program.settle`
    * `Crowd`
    * `Choice`
    * `Choice.IsWhole`
    * `Crowd.take`
    * `Crowd.follow`
    * `Crowd.follow_of_turn`
-/

namespace SparseTables

namespace Program

variable {α : Type}

/- Use the caches until the store is needed. -/
def settle (caches : Caches) :
    Program α → Program α × Caches
  | done outcome => (done outcome, caches)
  | ask request next => (ask request next, caches)
  | cached update next =>
      (next (update caches)).settle (update caches)

/- Does a program need the store, or is it at its end? -/
def IsSettled : Program α → Prop
  | cached _ _ => False
  | _ => True

theorem isSettled_settle
    (program : Program α)
    (caches : Caches) :
    (program.settle caches).1.IsSettled := by
  induction program generalizing caches with
  | done outcome => trivial
  | ask request next => trivial
  | cached update next ih => exact ih _ _

end Program

namespace Session

/- Has the call come to its end? -/
def Going.isOver (task : Going) : Bool :=
  match task.rest with
  | .done _ => true
  | _ => false

/- Why has the call failed, if it has? -/
def Going.error? (task : Going) : Option Error :=
  match task.rest with
  | .done (.error error) => some error
  | _ => none

/- The store and the caches, and the tasks that use them. -/
structure Crowd where
  shared : Shared
  tasks : List Going

/- What happens next. -/
inductive Choice where
  /- A task begins with a call. -/
  | start (policies : Policies) (call : Call)
  /- A task takes one step. -/
  | step (index : Nat)
  /- A task goes on until it needs the store again. -/
  | turn (index : Nat)
  | setClock (clock : Clock)
  | setFaults (faults : Faults)

/- Is no task left between an answer and its caches? -/
def Choice.IsWhole : Choice → Prop
  | step _ => False
  | _ => True

instance : DecidablePred Choice.IsWhole := fun choice =>
  match choice with
  | .step _ => isFalse id
  | .start _ _ | .turn _ => isTrue trivial
  | .setClock _ | .setFaults _ => isTrue trivial

namespace Crowd

/- A store that nobody uses yet. -/
def of (shared : Shared) : Crowd :=
  ⟨shared, []⟩

def contents (crowd : Crowd) : Contents :=
  crowd.shared.store.engine.contents

/- Have all calls come to their ends? -/
def isOver (crowd : Crowd) : Bool :=
  crowd.tasks.all Going.isOver

/- A task begins. -/
def start
    (policies : Policies)
    (call : Call)
    (crowd : Crowd) : Crowd :=
  { crowd with
    tasks := crowd.tasks ++ [⟨call, call.program policies⟩] }

/- A task has come so far. -/
def put
    (index : Nat)
    (crowd : Crowd)
    {call : Call}
    (rest : Program call.Answer)
    (shared : Shared) : Crowd where
  shared
  tasks := crowd.tasks.set index ⟨call, rest⟩

/- A task has come so far, and settles. -/
def putSettled
    (index : Nat)
    (crowd : Crowd)
    {call : Call}
    (later : Program call.Answer)
    (shared : Shared) : Crowd :=
  crowd.put index (later.settle shared.caches).1
    { shared with caches := (later.settle shared.caches).2 }

/- A task takes a step, unless it has to wait. -/
def step? (index : Nat) (crowd : Crowd) : Option Crowd := do
  let task ← crowd.tasks[index]?
  let (rest, shared) ← task.rest.step? crowd.shared
  some (crowd.put index rest shared)

/- A task takes a turn, unless it has to wait. -/
def turn? (index : Nat) (crowd : Crowd) : Option Crowd := do
  let task ← crowd.tasks[index]?
  let (later, shared) ← task.rest.step? crowd.shared
  some (crowd.putSettled index later shared)

/- One choice. -/
def take (choice : Choice) (crowd : Crowd) : Option Crowd :=
  match choice with
  | .start policies call => some (crowd.start policies call)
  | .step index => crowd.step? index
  | .turn index => crowd.turn? index
  | .setClock clock =>
      some { crowd with shared := withClock crowd.shared clock }
  | .setFaults faults =>
      some
        { crowd with shared := withFaults crowd.shared faults }

/- One choice after another. -/
def follow (crowd : Crowd) : List Choice → Option Crowd
  | [] => some crowd
  | choice :: rest => do
      let next ← crowd.take choice
      next.follow rest

------------------------------------------------------------
-- Turns
------------------------------------------------------------

variable {crowd next : Crowd} {index : Nat}

/- The task that goes on is there, and takes a step. -/
theorem turn?_eq_some
    (hTurn : crowd.turn? index = some next) :
    ∃ task later shared,
      crowd.tasks[index]? = some task ∧
      task.rest.step? crowd.shared = some (later, shared) ∧
      next = crowd.putSettled index later shared := by
  simp only [turn?, Option.bind_eq_bind,
    Option.bind_eq_some_iff, Prod.exists,
    Option.some.injEq] at hTurn
  rcases hTurn with ⟨task, hTask, later, shared, hStep, hNext⟩
  exact ⟨task, later, shared, hTask, hStep, hNext.symm⟩

/- To settle is to take steps. -/
theorem follow_settle
    {call : Call}
    {program : Program call.Answer}
    (hTask : crowd.tasks[index]? = some ⟨call, program⟩) :
    ∃ count,
      crowd.follow (List.replicate count (.step index)) =
        some (crowd.putSettled index program
          crowd.shared) := by
  have hHere : crowd.put index program crowd.shared =
      crowd := by
    rcases List.getElem?_eq_some_iff.1 hTask with
      ⟨hIndex, hSame⟩
    simp [put, ← hSame]
  induction program generalizing crowd with
  | done outcome => exact ⟨0, congrArg some hHere.symm⟩
  | ask request go => exact ⟨0, congrArg some hHere.symm⟩
  | cached update go ih =>
      have hIndex := (List.getElem?_eq_some_iff.1 hTask).1
      rcases @ih (update crowd.shared.caches)
        (crowd.put index (go (update crowd.shared.caches))
          { crowd.shared with
            caches := update crowd.shared.caches })
        (by simp [put, hIndex]) (by simp [put])
        with ⟨count, hFollow⟩
      refine ⟨count + 1, ?_⟩
      rw [List.replicate_succ, follow]
      simp only [take, step?, hTask, Option.bind_eq_bind,
        Option.bind_some, Program.step?]
      rw [hFollow]
      simp [putSettled, put, Program.settle]

/- A turn is one step of a task or several. -/
theorem follow_of_turn
    (hTurn : crowd.turn? index = some next) :
    ∃ count,
      crowd.follow
        (List.replicate (count + 1) (.step index)) =
          some next := by
  rcases turn?_eq_some hTurn with
    ⟨⟨call, rest⟩, later, shared, hTask, hStep, rfl⟩
  have hIndex := (List.getElem?_eq_some_iff.1 hTask).1
  rcases follow_settle
    (show (crowd.put index later shared).tasks[index]? =
      some ⟨call, later⟩ by simp [put, hIndex]) with
    ⟨count, hFollow⟩
  refine ⟨count, ?_⟩
  rw [List.replicate_succ, follow]
  simp only [take, step?, hTask, Option.bind_eq_bind,
    Option.bind_some, hStep]
  rw [hFollow]
  simp [putSettled, put]

end Crowd

end Session

end SparseTables

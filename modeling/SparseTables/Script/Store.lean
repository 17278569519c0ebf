import SparseTables.Program
import SparseTables.Script.Fault

/-
  This file runs programs on a store that is shared, has a
  clock, and fails as planned.

  Whether a call fails is decided when it is made.  A call
  that has to wait keeps that decision, and so does the
  program, until it is resumed.

  Key definitions include:
    * `Store`
    * `Store.perform`
    * `Waiting`
    * `Progress`
    * `Program.advance`
    * `Waiting.resume`
-/

namespace SparseTables

------------------------------------------------------------
-- Stores
------------------------------------------------------------

/- A store with its clock and its planned failures. -/
structure Store where
  engine : Engine
  clock : Clock
  faults : Faults

namespace Store

/- A new store. -/
def new : Store where
  engine := .ofContents .empty
  clock := .start
  faults := .none

/- Decide whether a request fails. -/
def meet
    (store : Store)
    (request : Request) : Option Failure × Store :=
  match store.engine.kind? request with
  | none => (none, store)
  | some kind =>
      let (failure, faults) :=
        store.faults.meet kind (request.text store.clock)
      (failure, { store with faults })

/-
  Do what a request asks for.  An answer can be lost, but not
  an error.  When the answer is lost, a transaction that the
  request began is undone.
-/
def perform
    (store : Store)
    (request : Request)
    (lost : Option Error) :
    Except Error request.Answer × Store :=
  let (answer, engine) :=
    store.engine.perform store.clock request
  match lost, answer with
  | some error, .ok _ =>
      let engine :=
        if request = .begin then engine.release else engine
      (.error error, { store with engine })
  | _, _ => (answer, { store with engine })

end Store

------------------------------------------------------------
-- Progress
------------------------------------------------------------

/- A program that waits for the store. -/
structure Waiting (α : Type) where
  request : Request
  lost : Option Error
  next : Except Error request.Answer → Program α

/- How far a program comes. -/
inductive Progress (α : Type) where
  | finished (outcome : Except Error α)
  | waiting (call : Waiting α)

/- A store and the caches of the session that uses it. -/
structure Shared where
  store : Store
  caches : Caches

namespace Program

variable {α : Type}

/- Run a program until it is finished or has to wait. -/
def advance (shared : Shared) :
    Program α → Progress α × Shared
  | done outcome => (.finished outcome, shared)
  | cached update next =>
      let caches := update shared.caches
      (next caches).advance { shared with caches }
  | ask request next =>
      let (failure, store) := shared.store.meet request
      match failure with
      | some ⟨false, error⟩ =>
          (next (.error error)).advance { shared with store }
      | other =>
          let lost := other.map Failure.error
          if store.engine.blocks request then
            (.waiting ⟨request, lost, next⟩,
              { shared with store })
          else
            let (answer, store) := store.perform request lost
            (next answer).advance { shared with store }

end Program

/- Go on with a program, which may have to wait again. -/
def Waiting.resume
    {α : Type}
    (call : Waiting α)
    (shared : Shared) : Progress α × Shared :=
  if shared.store.engine.blocks call.request then
    (.waiting call, shared)
  else
    let (answer, store) :=
      shared.store.perform call.request call.lost
    (call.next answer).advance { shared with store }

end SparseTables

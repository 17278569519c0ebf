import SparseTables.Script.FileName
import SparseTables.Script.Store
import SparseTables.Session.Write
import SparseTables.Settings.Basic

/-
  This file defines the world of a script: a store, sessions
  that share it, transactions whose scopes the script opens
  and drops, and at most one call that waits.

  A call that has to wait is given up, or kept to go on with
  it later.  What it did to the caches stays.

  Key definitions include:
    * `Reply`
    * `Report`
    * `World`
    * `World.start`
    * `World.call`
    * `World.finish`
    * `World.reopen`
-/

namespace SparseTables

/- What a call gives: an answer, or a new scope. -/
inductive Reply (α : Type) where
  | value (found : α)
  | opened

/- What becomes of a call. -/
inductive Report (α : Type) where
  | answered (found : α)
  | failed (error : Error)
  /- A scope with its number, and how many are live. -/
  | opened (scope depth : Nat)
  | blocked
  | pending

/- The caches of sessions, by their numbers. -/
abbrev SessionCaches :=
  List Caches

/- Everything that a script acts on. -/
structure World (α : Type) where
  store : Store
  /- Does the store outlive its closing? -/
  durable : Bool
  sessions : SessionCaches
  /- The number of the next scope. -/
  scopes : Nat
  /- A call that waits, and the number of its session. -/
  waiting : Option (Nat × Waiting (Reply α))

namespace World

variable {α : Type}

------------------------------------------------------------
-- Opening
------------------------------------------------------------

/- A new store with one session. -/
def new (durable : Bool) : World α where
  store := .new
  durable
  sessions := [.empty]
  scopes := 0
  waiting := none

/- Open a store in memory, or in a file of some name. -/
def openStore (file : Option String) : Except Error (World α) :=
  match file with
  | none => .ok (new false)
  | some name =>
      if FileName.canOpen name then
        .ok (new true)
      else
        .error (.store .cannotOpen)

/-
  Close the store and open it again.  What was not committed
  is lost, and so is everything in memory.
-/
def reopen (world : World α) : World α :=
  let contents :=
    if world.durable then
      world.store.engine.committed
    else
      .empty
  { world with
    store := { world.store with engine := .ofContents contents }
    sessions := [.empty]
    waiting := none }

------------------------------------------------------------
-- Sessions
------------------------------------------------------------

/- Add a session with empty caches; its number is given. -/
def addSession (world : World α) : Nat × World α :=
  (world.sessions.length,
    { world with sessions := world.sessions ++ [.empty] })

/- The caches of a session. -/
def cachesOf (world : World α) (session : Nat) : Caches :=
  world.sessions[session]?.getD .empty

/- What a session works with. -/
def shared (world : World α) (session : Nat) : Shared :=
  ⟨world.store, world.cachesOf session⟩

/- Take over what a session has changed. -/
def take
    (world : World α)
    (session : Nat)
    (shared : Shared) : World α :=
  { world with
    store := shared.store
    sessions := world.sessions.set session shared.caches }

------------------------------------------------------------
-- Calls
------------------------------------------------------------

/- Report a reply; a new scope gets the next number. -/
def report
    (world : World α) : Except Error (Reply α) →
      Report α × World α
  | .ok (.value found) => (.answered found, world)
  | .ok .opened =>
      (.opened world.scopes world.store.engine.depth,
        { world with scopes := world.scopes + 1 })
  | .error error => (.failed error, world)

/- Run a call; one that has to wait is given up. -/
def call
    (world : World α)
    (session : Nat)
    (program : Program (Reply α)) : Report α × World α :=
  match program.advance (world.shared session) with
  | (.finished outcome, shared) =>
      (world.take session shared).report outcome
  | (.waiting _, shared) => (.blocked, world.take session shared)

/- What becomes of a call that is kept when it waits. -/
def settle
    (world : World α)
    (session : Nat)
    (progress : Progress (Reply α))
    (shared : Shared) : Report α × World α :=
  let world := world.take session shared
  match progress with
  | .finished outcome => world.report outcome
  | .waiting call =>
      (.pending,
        { world with waiting := some (session, call) })

/- Run a call; one that has to wait is kept. -/
def start
    (world : World α)
    (session : Nat)
    (program : Program (Reply α)) : Report α × World α :=
  let (progress, shared) :=
    program.advance (world.shared session)
  world.settle session progress shared

/- Go on with the call that waits. -/
def finish (world : World α) : Report α × World α :=
  match world.waiting with
  | none =>
      (.failed (.invariant "no call is waiting"), world)
  | some (session, call) =>
      let (progress, shared) :=
        call.resume (world.shared session)
      { world with waiting := none }.settle session progress
        shared

/- Give up the call that waits. -/
def cancel (world : World α) : World α :=
  { world with waiting := none }

------------------------------------------------------------
-- Clock and failures
------------------------------------------------------------

/- Set the clock. -/
def setClock (world : World α) (clock : Clock) : World α :=
  { world with store := { world.store with clock } }

/- Plan a failure. -/
def plan (world : World α) (fault : PlannedFault) : World α :=
  let faults := world.store.faults.plan fault
  { world with store := { world.store with faults } }

/- Give up planned failures, and count all that happened. -/
def unplan (world : World α) : Nat × World α :=
  let faults := world.store.faults.clear
  (faults.fired,
    { world with store := { world.store with faults } })

end World

end SparseTables

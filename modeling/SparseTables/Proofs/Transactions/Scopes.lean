import SparseTables.Script.Fault

/-
  This file defines the scopes of transactions: what they
  share, and how the store tells them apart from everyone
  else.

  The connection has at most one transaction.  Who begins it
  takes the gate, and statements outside of transactions wait
  for the gate.  The scopes of a hold share a count.  A commit
  reaches the connection only while the count is one.  The
  scope that brings it to zero undoes what is left; the gate
  is given back with the last scope of its hold.

  The store of `Engine` is this one, seen by what it holds
  and not by how it is kept.

  Key definitions include:
    * `Connection`
    * `Handle`
    * `ScopedStore`
    * `Act`
    * `ScopedStore.take?`
    * `ScopedStore.follow`
-/

namespace SparseTables

------------------------------------------------------------
-- Connections
------------------------------------------------------------

/- A connection and its transaction. -/
structure Connection where
  contents : Contents
  /- What a rollback restores, if a transaction is open. -/
  saved : Option Contents
  /- How many commits have been asked of it. -/
  commits : Nat
deriving DecidableEq

namespace Connection

/- Is a transaction open? -/
def isOpen (connection : Connection) : Bool :=
  connection.saved.isSome

/- What would be left if the transaction was undone. -/
def durable (connection : Connection) : Contents :=
  connection.saved.getD connection.contents

/- A transaction in a transaction. -/
def alreadyOpen : Error :=
  .store (.other
    "cannot start a transaction within a transaction")

def run
    (clock : Clock)
    (connection : Connection)
    (asked : Statement) :
    Except Error asked.Answer × Connection :=
  match asked.run clock connection.contents with
  | .ok (answer, contents) =>
      (.ok answer, { connection with contents })
  | .error error => (.error error, connection)

def begin
    (connection : Connection) :
    Except Error Unit × Connection :=
  match connection.saved with
  | some _ => (.error alreadyOpen, connection)
  | none =>
      (.ok (),
        { connection with saved := some connection.contents })

def commit
    (connection : Connection) :
    Except Error Unit × Connection :=
  match connection.saved with
  | some _ => (.ok (), { connection with saved := none })
  | none => (.error (.store .noTransaction), connection)

/- Undo the transaction, if one is open. -/
def rollback (connection : Connection) : Connection :=
  { connection with
    contents := connection.durable
    saved := none }

end Connection

/-
  What a call gives that may fail.  It fails early, without
  an effect, or its answer is lost; an error is not lost.
-/
def Failure.strike
    {α σ : Type}
    (failure : Option Failure)
    (before : σ)
    (call : Except Error α × σ) : Except Error α × σ :=
  match failure, call with
  | none, call => call
  | some ⟨false, error⟩, _ => (.error error, before)
  | some ⟨true, error⟩, (.ok _, after) =>
      (.error error, after)
  | some ⟨true, _⟩, (.error error, after) =>
      (.error error, after)

------------------------------------------------------------
-- Scopes
------------------------------------------------------------

/- A scope, and the hold that it shares with others. -/
structure Handle where
  number : Nat
  hold : Nat
deriving DecidableEq

/- The store with its gate and the scopes of its holds. -/
structure ScopedStore where
  connection : Connection
  /- The hold that the gate is taken by. -/
  gate : Option Nat
  /- The count of each hold. -/
  counts : Nat → Nat
  /- The scopes that are not dropped yet. -/
  scopes : List Handle
  /- How many holds there have been. -/
  holds : Nat
  /- How many scopes there have been. -/
  given : Nat

/- What the tasks do with a store. -/
inductive Act where
  /- Run a statement outside of transactions. -/
  | shared (asked : Statement)
  | begin
  /- Open a scope within a scope. -/
  | nest (scope : Nat)
  /- Run a statement through a scope. -/
  | held (scope : Nat) (asked : Statement)
  | commit (scope : Nat)
  | drop (scope : Nat)
deriving DecidableEq

/- The request that an act makes. -/
def Act.request : Act → Request
  | shared asked => .shared asked
  | begin => .begin
  | nest _ => .nest
  | held _ asked => .held asked
  | commit _ => .commit
  | drop _ => .release

namespace ScopedStore

/- A store that nobody has used. -/
def ofContents (contents : Contents) : ScopedStore where
  connection := ⟨contents, none, 0⟩
  gate := none
  counts := fun _ => 0
  scopes := []
  holds := 0
  given := 0

/- A scope that is not dropped yet. -/
def scope? (store : ScopedStore) (number : Nat) :
    Option Handle :=
  store.scopes.find? fun handle => handle.number = number

/- The number of scopes that share a hold. -/
def sharing (store : ScopedStore) (hold : Nat) : Nat :=
  store.scopes.countP fun handle => handle.hold = hold

/- Set the count of a hold. -/
def setCount
    (store : ScopedStore)
    (hold count : Nat) : ScopedStore :=
  { store with
    counts := fun other =>
      if other = hold then count else store.counts other }

------------------------------------------------------------
-- Effects
------------------------------------------------------------

def run
    (store : ScopedStore)
    (clock : Clock)
    (failure : Option Failure)
    (asked : Statement) :
    Except Error asked.Answer × ScopedStore :=
  let (answer, connection) :=
    Failure.strike failure store.connection
      (store.connection.run clock asked)
  (answer, { store with connection })

/- Go on with the first scope of a new hold. -/
def acquire (store : ScopedStore) : ScopedStore :=
  { store.setCount store.holds 1 with
    gate := some store.holds
    scopes := store.scopes ++ [⟨store.given, store.holds⟩]
    holds := store.holds + 1
    given := store.given + 1 }

/-
  Begin a transaction.  If it is begun but the answer is
  lost, so is the hold, and the transaction is undone.
-/
def begin
    (store : ScopedStore)
    (failure : Option Failure) :
    Except Error Unit × ScopedStore :=
  match failure, store.connection.begin with
  | some ⟨false, error⟩, _ => (.error error, store)
  | _, (.error error, _) => (.error error, store)
  | some ⟨true, error⟩, (.ok (), connection) =>
      (.error error,
        { store with connection := connection.rollback })
  | none, (.ok (), connection) =>
      (.ok (), { store with connection }.acquire)

/- Open a further scope on a hold. -/
def nest (store : ScopedStore) (hold : Nat) : ScopedStore :=
  { store.setCount hold (store.counts hold + 1) with
    scopes := store.scopes ++ [⟨store.given, hold⟩]
    given := store.given + 1 }

/- Commit; it is honoured while the count is one. -/
def commit
    (store : ScopedStore)
    (failure : Option Failure)
    (hold : Nat) : Except Error Unit × ScopedStore :=
  match store.counts hold with
  | 0 => (.error Engine.uncounted, store)
  | 1 =>
      let asked :=
        { store.connection with
          commits := store.connection.commits + 1 }
      let (answer, connection) :=
        Failure.strike failure asked asked.commit
      (answer, { store with connection })
  | _ + 2 => (.ok (), store)

/- Undo what a hold has not committed. -/
def rollback (store : ScopedStore) : ScopedStore :=
  { store with connection := store.connection.rollback }

/- Give the gate back; what is still open is undone. -/
def free (store : ScopedStore) : ScopedStore :=
  { store.rollback with gate := none }

/- Drop a scope, and with the last one its hold. -/
def drop
    (store : ScopedStore)
    (handle : Handle) : ScopedStore :=
  let count := store.counts handle.hold
  let lowered := store.setCount handle.hold (count - 1)
  let undone := if count = 1 then lowered.rollback else lowered
  let left :=
    { undone with scopes := store.scopes.erase handle }
  if left.sharing handle.hold = 0 then left.free else left

------------------------------------------------------------
-- Turns
------------------------------------------------------------

/- Does a call outside of holds wait, unless it fails early? -/
def waits (store : ScopedStore) : Option Failure → Bool
  | some ⟨false, _⟩ => false
  | _ => store.gate.isSome

/-
  An act, unless it names a scope that is not there or has to
  wait for the gate.
-/
def take?
    (store : ScopedStore)
    (clock : Clock)
    (failure : Option Failure) :
    (act : Act) →
      Option (Except Error act.request.Answer × ScopedStore)
  | .shared asked =>
      if store.waits failure then none
      else some (store.run clock failure asked)
  | .begin =>
      if store.waits failure then none
      else some (store.begin failure)
  | .nest scope =>
      (store.scope? scope).map fun handle =>
        (.ok (), store.nest handle.hold)
  | .held scope asked =>
      (store.scope? scope).map fun _ =>
        store.run clock failure asked
  | .commit scope =>
      (store.scope? scope).map fun handle =>
        store.commit failure handle.hold
  | .drop scope =>
      (store.scope? scope).map fun handle =>
        (.ok (), store.drop handle)

/- An act, when it is done, and whether its call fails. -/
structure Turn where
  clock : Clock
  failure : Option Failure
  act : Act

/- A turn of some task. -/
def turn? (store : ScopedStore) (turn : Turn) :
    Option ScopedStore :=
  (store.take? turn.clock turn.failure turn.act).map Prod.snd

/- One turn after another. -/
def follow (store : ScopedStore) :
    List Turn → Option ScopedStore
  | [] => some store
  | turn :: rest =>
      (store.turn? turn).bind fun after => after.follow rest

end ScopedStore

end SparseTables

import SparseTables.Keeper
import SparseTables.Retry
import SparseTables.Store.Engine

/-
  This file defines programs: calls of a session as requests
  to the store, one after another, and uses of the caches
  between them.

  Key definitions include:
    * `Program`
    * `Program.bind`
    * `Program.attempt`
    * `Program.transaction`
-/

namespace SparseTables

/-
  A finished call; a request, and what comes after each of
  its answers; or a change of the caches, and what comes
  after it.
-/
inductive Program (α : Type) where
  | done (outcome : Except Error α)
  | ask
      (request : Request)
      (next : Except Error request.Answer → Program α)
  | cached
      (update : Caches → Caches)
      (next : Caches → Program α)

namespace Program

variable {α β : Type}

instance : Inhabited (Program α) :=
  ⟨done (.error (.invariant "no program"))⟩

------------------------------------------------------------
-- Sequences
------------------------------------------------------------

/- Go on with the outcome of a program. -/
def andThen
    (program : Program α)
    (next : Except Error α → Program β) : Program β :=
  match program with
  | done outcome => next outcome
  | ask request later =>
      ask request fun answer => (later answer).andThen next
  | cached update later =>
      cached update fun caches => (later caches).andThen next

/- An error ends a sequence. -/
def bind
    (program : Program α)
    (next : α → Program β) : Program β :=
  program.andThen fun
    | .ok found => next found
    | .error error => done (.error error)

instance : Monad Program where
  pure found := done (.ok found)
  bind := bind

instance : MonadExceptOf Error Program where
  throw error := done (.error error)
  tryCatch program handle :=
    program.andThen fun
      | .ok found => done (.ok found)
      | .error error => handle error

/- The outcome of a program, with its error if it fails. -/
def attempt (program : Program α) : Program (Except Error α) :=
  program.andThen fun outcome => done (.ok outcome)

/- What must be there. -/
def required (what : String) : Option α → Program α
  | some found => done (.ok found)
  | none => done (.error (.notFound what))

------------------------------------------------------------
-- The store
------------------------------------------------------------

/- Make a request. -/
def request (asked : Request) : Program asked.Answer :=
  ask asked done

/- Run a statement outside of transactions. -/
def run (statement : Statement) : Program statement.Answer :=
  request (.shared statement)

/- Run a statement of the transaction. -/
def runHeld (statement : Statement) : Program statement.Answer :=
  request (.held statement)

/-
  Run a program within a transaction, which is committed if
  the program succeeds and undone on every other way out.
-/
def transaction (body : Program α) : Program α := do
  request .begin
  let outcome ← attempt do
    let found ← body
    request .commit
    pure found
  request .release
  done outcome

------------------------------------------------------------
-- Caches
------------------------------------------------------------

/- The caches as they are. -/
def caches : Program Caches :=
  cached id fun caches => done (.ok caches)

/- Change the caches. -/
def update (change : Caches → Caches) : Program Unit :=
  cached change fun _ => done (.ok ())

/- Forget everything that was cached. -/
def clearCaches : Program Unit :=
  update fun _ => .empty

/- Keep a table, and give the one that is kept then. -/
def keepTable (row : Table) : Program Table :=
  cached
    (fun caches =>
      { caches with tables := (caches.tables.keep row).2 })
    fun caches =>
      done (.ok ((caches.tables.get? row.name).getD row))

/- Keep an attribute, and give the one that is kept then. -/
def keepAttribute (row : Attribute) : Program Attribute :=
  cached
    (fun caches =>
      { caches with
        attributes := (caches.attributes.keep row).2 })
    fun caches =>
      done (.ok ((caches.attributes.get?
        (row.tableId, row.name)).getD row))

/- Keep the identity of a value. -/
def keepValue (content : Scalar) (id : Int) : Program Unit :=
  update fun caches =>
    { caches with values := caches.values.keep content id }

end Program

end SparseTables

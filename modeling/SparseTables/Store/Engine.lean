import SparseTables.Store.Statement

/-
  This file defines the store with its one transaction.

  A transaction holds the store.  Its scopes share one hold:
  the first one begins it and the last one to be dropped ends
  it, and what was not committed by then is undone.  A commit
  acts only while a single scope is left.

  Everyone else waits while the store is held.

  Key definitions include:
    * `Hold`
    * `Engine`
    * `Request`
    * `Engine.blocks`
    * `Engine.perform`
-/

namespace SparseTables

------------------------------------------------------------
-- Holds
------------------------------------------------------------

/- The scopes of a transaction and what an undo restores. -/
structure Hold where
  /- The number of live scopes beyond one. -/
  further : Nat
  /- The contents before the transaction, until a commit. -/
  saved : Option Contents

/- The number of live scopes. -/
def Hold.depth (hold : Hold) : Nat :=
  hold.further + 1

/- The store, held or free. -/
structure Engine where
  contents : Contents
  hold : Option Hold

namespace Engine

/- A free store. -/
def ofContents (contents : Contents) : Engine :=
  ⟨contents, none⟩

/- The number of live scopes. -/
def depth (engine : Engine) : Nat :=
  (engine.hold.map Hold.depth).getD 0

/- Is something left to be committed or undone? -/
def inTransaction (engine : Engine) : Bool :=
  engine.hold.any fun hold => hold.saved.isSome

/- What a commit has made last. -/
def committed (engine : Engine) : Contents :=
  (engine.hold.bind Hold.saved).getD engine.contents

end Engine

------------------------------------------------------------
-- Requests
------------------------------------------------------------

/- What can be asked of the store. -/
inductive Request where
  /- A statement outside of transactions. -/
  | shared (statement : Statement)
  /- A statement of the transaction. -/
  | held (statement : Statement)
  | begin
  /- Open a further scope. -/
  | nest
  | commit
  /- Drop a scope. -/
  | release
deriving DecidableEq

namespace Request

/- What a request answers. -/
abbrev Answer : Request → Type
  | shared statement => statement.Answer
  | held statement => statement.Answer
  | begin => Unit
  | nest => Unit
  | commit => Unit
  | release => Unit

/- The kinds of calls that reach the store. -/
inductive Kind where
  | statement (kind : StatementKind)
  | begin
  | commit
deriving DecidableEq

/- The text of a request, if it has one. -/
def text (clock : Clock) : Request → String
  | shared statement => statement.text clock
  | held statement => statement.text clock
  | _ => ""

end Request

namespace Engine

/- Does a request have to wait? -/
def blocks (engine : Engine) : Request → Bool
  | .shared _ => engine.hold.isSome
  | .begin => engine.hold.isSome
  | _ => false

/-
  The kind of call that a request makes.  Inner commits and
  the counting of scopes do not reach the store.
-/
def kind? (engine : Engine) : Request → Option Request.Kind
  | .shared statement => some (.statement statement.kind)
  | .held statement => some (.statement statement.kind)
  | .begin => some .begin
  | .commit => if engine.depth = 1 then some .commit else none
  | .nest => none
  | .release => none

------------------------------------------------------------
-- Effects
------------------------------------------------------------

/- Run a statement; a failing one has no effect. -/
def statement
    (clock : Clock)
    (engine : Engine)
    (statement : Statement) :
    Except Error statement.Answer × Engine :=
  match statement.run clock engine.contents with
  | .ok (answer, contents) =>
      (.ok answer, { engine with contents })
  | .error error => (.error error, engine)

/- Take the store and open its transaction. -/
def begin (engine : Engine) : Engine :=
  { engine with hold := some ⟨0, some engine.contents⟩ }

/- Open a further scope on the hold. -/
def nest (engine : Engine) : Engine :=
  { engine with
    hold := engine.hold.map fun hold =>
      { hold with further := hold.further + 1 } }

/- A commit without a scope. -/
def uncounted : Error :=
  .invariant "Invalid transaction count (commit): 0"

/- Commit while a single scope is left. -/
def commit (engine : Engine) : Except Error Unit × Engine :=
  match engine.hold with
  | none => (.error uncounted, engine)
  | some hold =>
      if hold.further = 0 then
        match hold.saved with
        | some _ =>
            (.ok (),
              { engine with
                hold := some { hold with saved := none } })
        | none => (.error (.store .noTransaction), engine)
      else
        (.ok (), engine)

/- Drop a scope; the last one undoes and frees. -/
def release (engine : Engine) : Engine :=
  match engine.hold with
  | none => engine
  | some hold =>
      match hold.further with
      | 0 => ⟨engine.committed, none⟩
      | n + 1 =>
          { engine with
            hold := some { hold with further := n } }

/- Do what a request asks for. -/
def perform
    (clock : Clock)
    (engine : Engine) :
    (request : Request) → Except Error request.Answer × Engine
  | .shared asked => engine.statement clock asked
  | .held asked => engine.statement clock asked
  | .begin => (.ok (), engine.begin)
  | .nest => (.ok (), engine.nest)
  | .commit => engine.commit
  | .release => (.ok (), engine.release)

end Engine

end SparseTables

import SparseTables.Error

/-
  This file defines how often an action is tried again after
  failures of the store.

  Two callers that create the same row at once make one of
  the two fail.  When that one tries again it finds the row
  of the other.

  Key definitions include:
    * `Policy`
    * `Policy.run`
-/

namespace SparseTables

/- A positive number of attempts. -/
structure Policy where
  attempts : Nat
  positive : 0 < attempts
deriving DecidableEq

namespace Policy

/- At least one attempt is made, whatever was asked for. -/
def ofRequested (requested : Nat) : Policy :=
  ⟨max requested 1, by omega⟩

/- The policy for tables, attributes and items. -/
def standard : Policy :=
  ofRequested 4

/- The policy for values. -/
def forValues : Policy :=
  ofRequested 3

instance : Inhabited Policy :=
  ⟨standard⟩

variable {m : Type → Type} {α : Type}
variable [Monad m] [MonadExceptOf Error m]

/-
  Attempt an action, and again up to `further` times.  Only
  failures of the store lead to another attempt; when the
  last attempt fails so, its error is wrapped.
-/
def runFrom
    (label : String)
    (attempts : Nat)
    (action : m α) : Nat → m α
  | 0 =>
      tryCatch action fun error =>
        if error.isRetryable then
          throw (.exhausted label attempts error)
        else
          throw error
  | further + 1 =>
      tryCatch action fun error =>
        if error.isRetryable then
          runFrom label attempts action further
        else
          throw error

/- Attempt an action as often as the policy allows. -/
def run
    (policy : Policy)
    (label : String)
    (action : m α) : m α :=
  runFrom label policy.attempts action (policy.attempts - 1)

end Policy

end SparseTables

import SparseTables.Retry
import SparseTables.Settings.Tree

/-
  This file defines the settings of a session, which come
  from defaults, a settings file and environment variables.
  Later sources win.

  Key definitions include:
    * `Settings`
    * `Settings.load`
    * `Settings.policy`
    * `Settings.valuePolicy`
-/

namespace SparseTables

/- What can be set. -/
structure Settings where
  path : Option String
  journalMode : String
  synchronous : String
  attempts : Nat
  valueAttempts : Nat
  backoff : Nat
  logFilter : String
deriving DecidableEq

namespace Settings

/- The settings when no source sets anything. -/
def standard : Settings where
  path := none
  journalMode := "WAL"
  synchronous := "NORMAL"
  attempts := 4
  valueAttempts := 3
  backoff := 0
  logFilter := "info"

/- The policy for tables, attributes and items. -/
def policy (settings : Settings) : Policy :=
  .ofRequested settings.attempts

/- The policy for values. -/
def valuePolicy (settings : Settings) : Policy :=
  .ofRequested settings.valueAttempts

------------------------------------------------------------
-- Values
------------------------------------------------------------

/- All content can stand for a text. -/
def text? : Setting.Tree → Option String
  | .leaf (.text s) => some s
  | .leaf (.integer i) => some (toString i)
  | .leaf (.truth b) => some (toString b)
  | _ => none

/- A text or nothing. -/
def optionalText? :
    Option Setting.Tree → Option (Option String)
  | none | some .vacant => some none
  | some found => (text? found).map some

/- Digits behind an optional plus sign. -/
def digits? (cs : List Char) : Option Nat :=
  let digits :=
    match cs with
    | '+' :: rest => rest
    | _ => cs
  if digits.isEmpty || !digits.all Char.isDigit then
    none
  else
    some (Decimal.value digits)

/- The words that stand for one and for zero. -/
def word? (s : String) : Option Nat :=
  let word := Word.lower s
  if ["true", "on", "yes"].contains word then some 1
  else if ["false", "off", "no"].contains word then some 0
  else none

/- A natural number of 64 bits. -/
def natural? (tree : Setting.Tree) : Option Nat :=
  let found :=
    match tree with
    | .leaf (.text s) => (word? s).or (digits? s.toList)
    | .leaf (.integer i) =>
        if 0 ≤ i then some i.toNat else none
    | .leaf (.truth b) => some (if b then 1 else 0)
    | _ => none
  found.filter fun n => decide (n < Bounds.word64)

/- The last 32 bits of a natural number. -/
def short? (tree : Setting.Tree) : Option Nat :=
  (natural? tree).map fun n => n % Bounds.word32

------------------------------------------------------------
-- Sources
------------------------------------------------------------

/- The members of the section of the store. -/
def storeMembers : List String :=
  ["path", "journal_mode", "synchronous"]

/- The members of the section of retries. -/
def retryMembers : List String :=
  ["attempts", "value_attempts", "backoff_ms"]

/- The assignments that all others follow. -/
def defaults : List Setting :=
  let text (path : List String) (s : String) : Setting :=
    ⟨path, .content (.text s)⟩
  let count (path : List String) (n : Nat) : Setting :=
    ⟨path, .content (.integer n)⟩
  [text ["database", "journal_mode"] standard.journalMode,
    text ["database", "synchronous"] standard.synchronous,
    count ["retry", "attempts"] standard.attempts,
    count ["retry", "value_attempts"] standard.valueAttempts,
    count ["retry", "backoff_ms"] standard.backoff,
    text ["log_filter"] standard.logFilter]

/- What is read, or a failure with the name at fault. -/
def demand {α : Type} (name : String) :
    Option α → Except Error α
  | some found => .ok found
  | none => .error (.config ("bad value for " ++ name))

/- The settings that a tree holds. -/
def ofTree (tree : Setting.Tree) : Except Error Settings := do
  let store ← demand "database" (tree.member? [] "database")
  let retry ← demand "retry" (tree.member? [] "retry")
  let stored (name : String) := store.member? storeMembers name
  let retried (name : String) := retry.member? retryMembers name
  let path ← demand "path" (optionalText? (stored "path"))
  let journalMode ← demand "journal_mode"
    ((stored "journal_mode").bind text?)
  let synchronous ← demand "synchronous"
    ((stored "synchronous").bind text?)
  let attempts ← demand "attempts"
    ((retried "attempts").bind short?)
  let valueAttempts ← demand "value_attempts"
    ((retried "value_attempts").bind short?)
  let backoff ← demand "backoff_ms"
    ((retried "backoff_ms").bind natural?)
  let logFilter ← demand "log_filter"
    ((tree.member? [] "log_filter").bind text?)
  pure
    { path, journalMode, synchronous, attempts,
      valueAttempts, backoff, logFilter }

/- Settings from assignments behind the defaults. -/
def ofList (all : List Setting) : Except Error Settings :=
  ofTree ((defaults ++ all).foldl Setting.Tree.assign
    (.table []))

/-
  Load settings from the text of a file, if there is one,
  and from variables.
-/
def load
    (file : Option String)
    (environment : List (String × String)) :
    Except Error Settings := do
  let fromFile ←
    match file with
    | none => pure []
    | some text =>
        match Setting.readFile? text with
        | some settings => pure settings
        | none => .error (.config "malformed settings file")
  let fromVariables := environment.filterMap fun entry =>
    Setting.ofVariable? entry.1 entry.2
  ofList (fromFile ++ fromVariables)

end Settings

end SparseTables

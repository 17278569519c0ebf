import SparseTables.Cell.Comparison

/-
  This file defines the clock of the store: the text that
  stands for the current time, if it was set.

  Key definitions include:
    * `Clock`
    * `Clock.literal`
    * `Clock.cell`
-/

namespace SparseTables

/- The set time; without one the store takes its own. -/
structure Clock where
  set : Option String
deriving DecidableEq

namespace Clock

/- The clock of a new store. -/
def start : Clock :=
  ⟨some "2024-01-01 00:00:00"⟩

instance : Inhabited Clock :=
  ⟨start⟩

/- A text in quotes, its own quotes doubled. -/
def quoted (text : String) : String :=
  String.ofList
    ('\'' :: (text.toList.flatMap fun c =>
      if c == '\'' then ['\'', '\''] else [c]) ++ ['\''])

/- The current time within a statement. -/
def literal (clock : Clock) : String :=
  match clock.set with
  | some text => quoted text
  | none => "DATETIME('now')"

/-
  What a time column holds for the current time.  A time that
  spells a number becomes that number; a time that was not
  set is not known.
-/
def cell (clock : Clock) : Cell :=
  match clock.set with
  | some text => .ofNumeral text
  | none => .null

end Clock

end SparseTables

/-
  This file decides which names of files can be opened in a
  new directory.

  A name is a path.  Its steps are taken one after another
  without looking whether they exist, and `..` undoes the
  step before.  What is left must be a single name, and short
  enough for the files that are made beside it.

  Key definitions include:
    * `FileName.resolve?`
    * `FileName.canOpen`
-/

namespace SparseTables

namespace FileName

/- The most bytes of a step. -/
def stepLimit : Nat :=
  255

/- The most bytes of a name that gets files beside it. -/
def nameLimit : Nat :=
  247

/- The most bytes of all steps, each with a slash. -/
def pathLimit : Nat :=
  496

/- The bytes of steps, each with a slash. -/
def size (steps : List String) : Nat :=
  steps.foldl (fun size step => size + step.utf8ByteSize + 1) 0

/- Take a step; the last step comes first in the list. -/
def advance?
    (taken : List String)
    (step : String) : Option (List String) :=
  if step == "" || step == "." then
    some taken
  else if step == ".." then
    some taken.tail
  else if step.utf8ByteSize ≤ stepLimit &&
      size (step :: taken) ≤ pathLimit then
    some (step :: taken)
  else
    none

/- Take all steps of a name. -/
def resolve? (name : String) : Option (List String) :=
  (name.splitOn "/").foldlM advance? []

/- Can a file of this name be opened in a new directory? -/
def canOpen (name : String) : Bool :=
  match resolve? name with
  | some [last] =>
      last.utf8ByteSize ≤ nameLimit && !name.contains '\x00'
  | _ => false

end FileName

end SparseTables

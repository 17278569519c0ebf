import SparseTables.Cell

/-
  This file defines the named parameters of a statement, in
  the order in which their names were first set.

  Key definitions include:
    * `Params`
    * `Params.set`
    * `Params.get?`
    * `Params.ofScalars`
-/

namespace SparseTables

/- Cells by parameter name; no name occurs twice. -/
structure Params where
  entries : List (String × Cell)
deriving DecidableEq, Inhabited

namespace Params

def empty : Params :=
  ⟨[]⟩

/- Replace the cell of a name, or add the name at the end. -/
def setEntry
    (name : String)
    (cell : Cell) :
    List (String × Cell) → List (String × Cell)
  | [] => [(name, cell)]
  | (other, old) :: rest =>
      if other = name then
        (name, cell) :: rest
      else
        (other, old) :: setEntry name cell rest

/- Set a parameter. -/
def set
    (params : Params)
    (name : String)
    (cell : Cell) : Params :=
  ⟨setEntry name cell params.entries⟩

/- The cell of a parameter. -/
def get? (params : Params) (name : String) : Option Cell :=
  params.entries.lookup name

/- Set parameters to scalars, one after another. -/
def ofScalars (pairs : List (String × Scalar)) : Params :=
  pairs.foldl (fun params pair =>
    params.set pair.1 pair.2.cell) empty

end Params

end SparseTables

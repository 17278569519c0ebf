import SparseTables.Scalar
import SparseTables.Text.Quoted

/-
  This file defines cells, what the store's columns hold, and
  how they correspond to scalars.

  Key definitions include:
    * `Cell`
    * `Cell.scalar?`
    * `Cell.debug`
    * `Scalar.cell`
    * `Scalar.ofBytes?`
-/

namespace SparseTables

------------------------------------------------------------
-- Cells
------------------------------------------------------------

/- One column of one stored row. -/
inductive Cell where
  | null
  | integer (i : Int)
  | real (x : Number)
  | text (s : String)
  | blob (bytes : List UInt8)
deriving DecidableEq, Inhabited

namespace Cell

def isNull : Cell → Bool
  | null => true
  | _ => false

/- A truth value is stored as an integer. -/
def ofBool (b : Bool) : Cell :=
  integer (if b then 1 else 0)

/-
  The scalar in a cell; neither null nor a blob is one, and
  an integer becomes the nearest number.
-/
def scalar? : Cell → Option Scalar
  | null => none
  | integer i => some (Scalar.ofInt i)
  | real x => some (.number x)
  | text s => some (.text s)
  | blob _ => none

/- The cell as error texts show it. -/
def debug : Cell → String
  | null => "Null"
  | integer i => "Integer(" ++ toString i ++ ")"
  | real x => "Real(" ++ x.debug ++ ")"
  | text s => "Text(" ++ Quoted.quote s ++ ")"
  | blob bytes =>
      "Blob([" ++
        ", ".intercalate (bytes.map fun b => toString b) ++
        "])"

end Cell

------------------------------------------------------------
-- Scalars
------------------------------------------------------------

namespace Scalar

/- The cell that stores a scalar. -/
def cell : Scalar → Cell
  | number x => .real x
  | text s => .text s

/- The text of bytes, if they are valid UTF-8. -/
def ofBytes? (bytes : List UInt8) : Option Scalar :=
  (String.fromUTF8? ⟨bytes.toArray⟩).map text

end Scalar

end SparseTables

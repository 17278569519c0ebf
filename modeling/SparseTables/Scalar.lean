import SparseTables.Number.Layout

/-
  This file defines scalars, the only data an attribute or a
  key can hold: a number or a text.

  Key definitions include:
    * `Scalar`
    * `Scalar.same`
    * `Scalar.ofInt`
    * `Scalar.exactInt?`
    * `Scalar.isStorable`
-/

namespace SparseTables

/- A number or a text. -/
inductive Scalar where
  | number (x : Number)
  | text (s : String)
deriving DecidableEq, Inhabited

namespace Scalar

def isNumeric : Scalar → Bool
  | number _ => true
  | text _ => false

def number? : Scalar → Option Number
  | number x => some x
  | text _ => none

def text? : Scalar → Option String
  | number _ => none
  | text s => some s

------------------------------------------------------------
-- Equality
------------------------------------------------------------

/-
  Equal content: texts by characters, numbers by bits except
  that the two zeros are one.
-/
def same : Scalar → Scalar → Bool
  | number x, number y => x.same y
  | text s, text t => s == t
  | _, _ => false

/- The positive zero stands for both zeros. -/
def normalized : Scalar → Scalar
  | number x => number x.normalized
  | text s => text s

------------------------------------------------------------
-- Integers
------------------------------------------------------------

/- The nearest number to an integer. -/
def ofInt (i : Int) : Scalar :=
  number (Number.ofInt i)

/- An integer as a number, if a number holds it exactly. -/
def exactInt? (i : Int) : Option Scalar :=
  let x := Number.ofInt i
  if x.truncated = i then some (number x) else none

------------------------------------------------------------
-- Storing and showing
------------------------------------------------------------

/- NaN has no row in the value dictionary. -/
def isStorable : Scalar → Bool
  | number x => !x.isNaN
  | text _ => true

/- The content as text. -/
def display : Scalar → String
  | number x => x.display
  | text s => s

end Scalar

end SparseTables

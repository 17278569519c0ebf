/-
  This file defines membership of characters in lists of code
  ranges.

  Key definitions include:
    * `Ranges.holds`
-/

namespace SparseTables

/- Does one of the ranges, bounds included, hold the code? -/
def Ranges.holds
    (ranges : List (Nat × Nat))
    (c : Char) : Bool :=
  ranges.any fun (first, last) =>
    decide (first ≤ c.toNat) && decide (c.toNat ≤ last)

end SparseTables

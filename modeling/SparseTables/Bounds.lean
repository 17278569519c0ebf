/-
  This file names the bounds of machine words.

  Key definitions include:
    * `Bounds.word32`
    * `Bounds.word64`
    * `Bounds.signed32`
    * `Bounds.signed64`
-/

namespace SparseTables

namespace Bounds

/- The number of words of 32 bits. -/
def word32 : Nat :=
  4294967296

/- The number of words of 64 bits. -/
def word64 : Nat :=
  18446744073709551616

/- The first integer beyond the signed ones of 32 bits. -/
def signed32 : Int :=
  2147483648

/- The first integer beyond the signed ones of 64 bits. -/
def signed64 : Int :=
  9223372036854775808

/- Is an integer one of the signed ones of 64 bits? -/
def isSigned64 (i : Int) : Bool :=
  decide (-signed64 ≤ i ∧ i < signed64)

end Bounds

end SparseTables

/-
  This file hands out aliases.  The first free one among a
  base, the base with 2, the base with 3 and so on is taken,
  so no alias is handed out twice.

  Key definitions include:
    * `Aliases`
    * `Aliases.candidate`
    * `Aliases.freeFrom`
    * `Aliases.claim`
-/

namespace SparseTables

/- The aliases that were handed out, in their order. -/
structure Aliases where
  used : List String
deriving DecidableEq

namespace Aliases

def empty : Aliases :=
  ⟨[]⟩

/- The candidates for a base, in the order of trying. -/
def candidate (base : String) : Nat → String
  | 0 => base
  | n + 1 => base ++ toString (n + 2)

/-
  The first candidate that is not in use, from a number on.
  A candidate in use is met once, so it is left out of the
  later tries, of which the first argument bounds the number.
-/
def freeFrom
    (base : String) : Nat → Nat → List String → String
  | 0, number, _ => candidate base number
  | tries + 1, number, used =>
      let label := candidate base number
      if used.contains label then
        freeFrom base tries (number + 1) (used.erase label)
      else
        label

/-
  The first free candidate.  One of the candidates is free
  when they are more than the aliases in use.
-/
def free (aliases : Aliases) (base : String) : String :=
  freeFrom base aliases.used.length 0 aliases.used

/- Hand out an alias for a base. -/
def claim
    (aliases : Aliases)
    (base : String) : String × Aliases :=
  let label := aliases.free base
  (label, ⟨aliases.used ++ [label]⟩)

end Aliases

end SparseTables

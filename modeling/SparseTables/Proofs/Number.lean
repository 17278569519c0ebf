import Mathlib.Algebra.Group.Nat.Defs
import Mathlib.Algebra.Order.Field.Basic
import Mathlib.Algebra.Order.Ring.Rat
import Mathlib.Data.Prod.Lex
import Mathlib.Order.Compare
import Mathlib.Order.Monotone.Basic
import Mathlib.Tactic.FieldSimp
import Mathlib.Tactic.Ring
import SparseTables.Number.Rounding

/-
  This file shows that the order of numbers is the order of
  their values, that integers below 2 ^ 53 become numbers and
  integers again without a loss, and that those of 64 bits
  become finite numbers.

  Finite numbers are multiples of the least positive one, and
  the multiples grow with the magnitudes.  The infinities lie
  beyond all finite numbers.  Scaled to 53 bits a small integer
  is a significand, so the rounding has nothing to round.

  Main declarations:
    * `Number.value`
    * `Number.place`
    * `Number.compare_order`
    * `Number.compareInt_eq`
    * `Number.Exact`
    * `Number.isWhole_ofInt`
    * `Number.toInt64_ofInt`
    * `Number.compareInt_ofInt`
    * `Number.isFinite_ofInt`
-/

namespace SparseTables

/- Elements in the same order compare the same. -/
theorem compare_congr
    {α β : Type}
    [LinearOrder α] [LinearOrder β]
    {a b : α}
    {c d : β}
    (hLess : a < b ↔ c < d)
    (hMore : b < a ↔ d < c) :
    compare a b = compare c d := by
  rcases lt_trichotomy a b with hLt | hEq | hGt
  · rw [compare_lt_iff_lt.2 hLt,
      compare_lt_iff_lt.2 (hLess.1 hLt)]
  · have hSame : c = d := by
      subst hEq
      exact le_antisymm
        (not_lt.1 fun hGt => lt_irrefl _ (hMore.2 hGt))
        (not_lt.1 fun hLt => lt_irrefl _ (hLess.2 hLt))
    rw [compare_eq_iff_eq.2 hEq, compare_eq_iff_eq.2 hSame]
  · rw [compare_gt_iff_gt.2 hGt,
      compare_gt_iff_gt.2 (hMore.1 hGt)]

namespace Number

------------------------------------------------------------
-- Multiples of the least number
------------------------------------------------------------

/- The multiple of the least number that a magnitude is. -/
def multiple (magnitude : Nat) : Nat :=
  if magnitude < fractions then
    magnitude
  else
    (fractions + magnitude % fractions) *
      2 ^ (magnitude / fractions - 1)

theorem multiple_lt_succ (magnitude : Nat) :
    multiple magnitude < multiple (magnitude + 1) := by
  unfold multiple fractions
  by_cases hSmall : magnitude + 1 < 4503599627370496
  · rw [if_pos (by omega), if_pos hSmall]
    omega
  · rw [if_neg hSmall]
    by_cases hLast : magnitude < 4503599627370496
    · -- The last magnitude without an exponent.
      have hFirst : magnitude + 1 = 4503599627370496 := by
        omega
      rw [if_pos hLast, hFirst]
      omega
    · rw [if_neg hLast]
      by_cases hCarry :
          magnitude % 4503599627370496 + 1 < 4503599627370496
      · have hDiv : (magnitude + 1) / 4503599627370496 =
            magnitude / 4503599627370496 := by
          omega
        have hMod : (magnitude + 1) % 4503599627370496 =
            magnitude % 4503599627370496 + 1 := by
          omega
        rw [hDiv, hMod]
        exact Nat.mul_lt_mul_of_pos_right (by omega)
          (Nat.two_pow_pos _)
      · -- The fraction is full, so the exponent grows.
        have hDiv : (magnitude + 1) / 4503599627370496 - 1 =
            magnitude / 4503599627370496 - 1 + 1 := by
          omega
        have hMod :
            (magnitude + 1) % 4503599627370496 = 0 := by
          omega
        rw [hDiv, hMod, Nat.pow_succ, Nat.mul_comm (2 ^ _) 2,
          ← Nat.mul_assoc]
        exact Nat.mul_lt_mul_of_pos_right (by omega)
          (Nat.two_pow_pos _)

theorem multiple_strictMono : StrictMono multiple :=
  strictMono_nat_of_lt_succ multiple_lt_succ

theorem units_eq (x : Number) :
    x.units =
      if x.negative then -(multiple x.magnitude : Int)
      else multiple x.magnitude := by
  have hSize : x.significand *
      Nat.pow 2 (x.exponent + 1074).toNat =
        multiple x.magnitude := by
    unfold significand exponent multiple
    by_cases hSmall : x.magnitude < fractions
    · simp [hSmall]
    · simp only [if_neg hSmall, Nat.pow_eq]
      congr 2
      omega
  unfold units
  simp only [hSize]

/- Units and signed magnitudes are in one order. -/
theorem units_lt_iff (x y : Number) :
    x.units < y.units ↔ x.order < y.order := by
  have hLess : multiple x.magnitude < multiple y.magnitude ↔
      x.magnitude < y.magnitude :=
    multiple_strictMono.lt_iff_lt
  have hMore : multiple y.magnitude < multiple x.magnitude ↔
      y.magnitude < x.magnitude :=
    multiple_strictMono.lt_iff_lt
  have hZero : multiple 0 = 0 := by decide
  have hLeft : 0 < multiple x.magnitude ↔
      0 < x.magnitude := by
    rw [← hZero, multiple_strictMono.lt_iff_lt]
    simp [hZero]
  have hRight : 0 < multiple y.magnitude ↔
      0 < y.magnitude := by
    rw [← hZero, multiple_strictMono.lt_iff_lt]
    simp [hZero]
  rw [units_eq, units_eq]
  unfold order
  cases x.negative <;> cases y.negative <;>
    simp only [Bool.false_eq_true, if_true, if_false] <;>
    omega

------------------------------------------------------------
-- Values
------------------------------------------------------------

/- The value of a finite number. -/
def value (x : Number) : ℚ :=
  let size : ℚ := x.ratio.1 / x.ratio.2
  if x.negative then -size else size

theorem exponent_ge (x : Number) : -1074 ≤ x.exponent := by
  unfold exponent fractions
  split <;> omega

theorem exists_scale_eq :
    ∃ width : ℕ, width = 1074 ∧ scale = 2 ^ width := by
  unfold scale
  generalize 1074 = width
  exact ⟨width, rfl, Nat.pow_eq⟩

/- A finite number is a multiple of the least one. -/
theorem ratio_eq (x : Number) :
    (x.ratio.1 : ℚ) / x.ratio.2 =
      (x.significand * 2 ^ (x.exponent + 1074).toNat : ℕ) /
        scale := by
  have hLeast := x.exponent_ge
  have hTwo : (2 : ℚ) ≠ 0 := two_ne_zero
  rcases exists_scale_eq with ⟨width, hWidth, hScale⟩
  unfold ratio
  by_cases hWhole : 0 ≤ x.exponent
  · have hPower : (x.exponent + 1074).toNat =
        x.exponent.toNat + width := by
      omega
    rw [if_pos hWhole, hPower, hScale, pow_add, Nat.pow_eq]
    push_cast
    field_simp
  · have hPower : width =
        (x.exponent + 1074).toNat + (-x.exponent).toNat := by
      omega
    rw [if_neg hWhole, hScale, Nat.pow_eq]
    push_cast
    rw [div_eq_div_iff (pow_ne_zero _ hTwo)
      (pow_ne_zero _ hTwo), mul_assoc, ← pow_add]
    exact congrArg (fun power : ℕ =>
      (x.significand : ℚ) * 2 ^ power) hPower

theorem ratio_pos (x : Number) : 0 < x.ratio.2 := by
  unfold ratio
  split
  · exact Nat.one_pos
  · exact Nat.two_pow_pos _

theorem value_eq (x : Number) :
    x.value = x.units / scale := by
  unfold value units
  simp only [x.ratio_eq, Nat.pow_eq]
  by_cases hNegative : x.negative = true
  · simp only [if_pos hNegative, Int.cast_neg,
      Int.cast_natCast, neg_div]
  · simp only [if_neg hNegative, Int.cast_natCast]

/- The order of finite numbers is that of their values. -/
theorem value_lt_iff (x y : Number) :
    x.value < y.value ↔ x.order < y.order := by
  have hScale : (0 : ℚ) < scale := by
    rcases exists_scale_eq with ⟨width, -, hScale⟩
    rw [hScale]
    exact Nat.cast_pos.2 (Nat.two_pow_pos width)
  rw [value_eq, value_eq, div_lt_div_iff_of_pos_right hScale,
    Int.cast_lt, units_lt_iff]

------------------------------------------------------------
-- Places
------------------------------------------------------------

/- The place of a number among all: the infinities are last. -/
def place (x : Number) : ℤ ×ₗ ℚ :=
  if x.isFinite then toLex (0, x.value)
  else if x.negative then toLex (-1, x.order)
  else toLex (1, x.order)

theorem place_lt_iff (x y : Number) :
    x.place < y.place ↔ x.order < y.order := by
  have hValue := value_lt_iff x y
  have hPos : 0 < infiniteMagnitude := by decide
  unfold place
  by_cases hLeft : x.magnitude < infiniteMagnitude <;>
    by_cases hRight : y.magnitude < infiniteMagnitude <;>
    simp only [isFinite, hLeft, hRight, decide_true,
      decide_false, if_true, if_false, Bool.false_eq_true]
  · simpa [Prod.Lex.toLex_lt_toLex] using hValue
  all_goals
    unfold order
    cases x.negative <;> cases y.negative <;>
      simp [Prod.Lex.toLex_lt_toLex] <;> omega

/- Numbers compare by their places. -/
theorem compare_order (x y : Number) :
    compare x.order y.order = compare x.place y.place :=
  compare_congr (x.place_lt_iff y).symm
    (y.place_lt_iff x).symm

/- Numbers compare with integers by value. -/
theorem compareInt_eq (x : Number) (i : Int) :
    x.compareInt i =
      compare x.place (toLex ((0 : ℤ), (i : ℚ))) := by
  unfold compareInt place
  by_cases hFinite : x.isFinite = true
  · have hPos : (0 : ℚ) < x.ratio.2 :=
      Nat.cast_pos.2 x.ratio_pos
    have hValue : x.value =
        ((if x.negative then -(x.ratio.1 : Int)
          else x.ratio.1 : Int) : ℚ) / x.ratio.2 := by
      unfold value
      cases x.negative <;> simp [neg_div]
    simp only [hFinite, if_true, hValue]
    apply compare_congr
    · rw [Prod.Lex.toLex_lt_toLex]
      simp only [lt_self_iff_false, true_and, false_or]
      rw [div_lt_iff₀ hPos]
      exact_mod_cast Iff.rfl
    · rw [Prod.Lex.toLex_lt_toLex]
      simp only [lt_self_iff_false, true_and, false_or]
      rw [lt_div_iff₀ hPos]
      exact_mod_cast Iff.rfl
  · simp only [hFinite, Bool.false_eq_true, if_false]
    cases x.negative
    · exact (compare_gt_iff_gt.2 (by
        simp [Prod.Lex.toLex_lt_toLex])).symm
    · exact (compare_lt_iff_lt.2 (by
        simp [Prod.Lex.toLex_lt_toLex])).symm

end Number

namespace Number

------------------------------------------------------------
-- Rounding without a remainder
------------------------------------------------------------

theorem halfEven_one (count : Nat) :
    halfEven count 1 = count := by
  simp [halfEven, Nat.mod_one]

variable {size : Nat}

theorem log2_le_of_lt (hSize : size < 2 ^ 53) :
    size.log2 ≤ 52 := by
  by_cases hZero : size = 0
  · simp [hZero]
  · exact Nat.lt_succ_iff.1 ((Nat.log2_lt hZero).2 hSize)

/- An integer with all of its 53 bits. -/
def widened (size : Nat) : Nat :=
  size * 2 ^ (52 - size.log2)

theorem fractions_le_widened (hPos : size ≠ 0)
    (hSize : size < 2 ^ 53) :
    fractions ≤ widened size := by
  have hLog := log2_le_of_lt hSize
  calc fractions = 2 ^ size.log2 * 2 ^ (52 - size.log2) := by
        rw [← Nat.pow_add, Nat.add_sub_cancel' hLog]
        rfl
    _ ≤ size * 2 ^ (52 - size.log2) :=
        Nat.mul_le_mul_right _ (Nat.log2_self_le hPos)

theorem widened_lt (hSize : size < 2 ^ 53) :
    widened size < 2 * fractions := by
  have hLog := log2_le_of_lt hSize
  have hPower : size.log2 + 1 + (52 - size.log2) = 53 := by
    omega
  calc size * 2 ^ (52 - size.log2)
      < 2 ^ (size.log2 + 1) * 2 ^ (52 - size.log2) :=
        Nat.mul_lt_mul_of_pos_right Nat.lt_log2_self
          (Nat.two_pow_pos _)
    _ = 2 * fractions := by
        rw [← Nat.pow_add, hPower]
        rfl

theorem unitExponent_eq (hPos : size ≠ 0) :
    unitExponent 53 (-1074) size 1 = size.log2 - 52 := by
  have hLow := Nat.log2_self_le hPos
  have hOne : Nat.log2 1 = 0 := by decide
  have hNot : ¬ size < 1 * Nat.pow 2 size.log2 := by
    rw [Nat.one_mul, Nat.pow_eq]
    omega
  simp only [unitExponent, hOne, Int.natCast_zero,
    Int.sub_zero, Int.natCast_nonneg, if_true,
    Int.toNat_natCast, hNot, if_false]
  omega

theorem unitCount_eq (hSize : size < 2 ^ 53) :
    unitCount size 1 (size.log2 - 52) = widened size := by
  have hLog := log2_le_of_lt hSize
  unfold unitCount widened
  by_cases hFull : size.log2 = 52
  · simp [hFull, halfEven_one]
  · have hNeg : ¬ (0 : Int) ≤ size.log2 - 52 := by omega
    have hPower : (-((size.log2 : Int) - 52)).toNat =
        52 - size.log2 := by
      omega
    rw [if_neg hNeg, hPower, halfEven_one, Nat.pow_eq]

------------------------------------------------------------
-- Small integers
------------------------------------------------------------

/- The magnitude of a small integer. -/
theorem magnitude_ofRatio (negative : Bool)
    (hPos : size ≠ 0)
    (hSize : size < 2 ^ 53) :
    (ofRatio negative size 1).magnitude =
      (size.log2 + 1022) * fractions + widened size := by
  have hLog := log2_le_of_lt hSize
  have hMost := widened_lt hSize
  have hUnit : ((size.log2 : Int) - 52 + 1074).toNat =
      size.log2 + 1022 := by
    omega
  simp only [ofRatio, if_neg hPos, unitExponent_eq hPos,
    unitCount_eq hSize, hUnit, saturated]
  apply Nat.min_eq_right
  unfold infiniteMagnitude fractions at *
  omega

/- A small integer is a quotient of powers of two. -/
theorem ratio_ofRatio (negative : Bool)
    (hPos : size ≠ 0)
    (hSize : size < 2 ^ 53) :
    (ofRatio negative size 1).ratio =
      (widened size, 2 ^ (52 - size.log2)) := by
  have hLog := log2_le_of_lt hSize
  have hLeast := fractions_le_widened hPos hSize
  have hMost := widened_lt hSize
  have hMagnitude := magnitude_ofRatio negative hPos hSize
  have hNormal : ¬ (ofRatio negative size 1).magnitude <
      fractions := by
    rw [hMagnitude]
    omega
  have hSignificand : (ofRatio negative size 1).significand =
      widened size := by
    rw [significand, if_neg hNormal, hMagnitude]
    unfold fractions at *
    omega
  have hExponent : (ofRatio negative size 1).exponent =
      size.log2 - 52 := by
    rw [exponent, if_neg hNormal, hMagnitude]
    unfold fractions at *
    omega
  rw [ratio, hSignificand, hExponent]
  by_cases hFull : size.log2 = 52
  · simp [hFull]
  · have hNeg : ¬ (0 : Int) ≤ size.log2 - 52 := by omega
    have hPower : (-((size.log2 : Int) - 52)).toNat =
        52 - size.log2 := by
      omega
    rw [if_neg hNeg, hPower, Nat.pow_eq]

theorem isFinite_ofRatio (negative : Bool)
    (hPos : size ≠ 0)
    (hSize : size < 2 ^ 53) :
    (ofRatio negative size 1).isFinite = true := by
  have hLog := log2_le_of_lt hSize
  have hMost := widened_lt hSize
  rw [isFinite, decide_eq_true_iff,
    magnitude_ofRatio negative hPos hSize]
  unfold infiniteMagnitude fractions at *
  omega

/- Numbers hold integers below 2 ^ 53 exactly. -/
def Exact (i : Int) : Prop :=
  i.natAbs < 2 ^ 53

instance (i : Int) : Decidable (Exact i) :=
  inferInstanceAs (Decidable (_ < _))

variable {i : Int}

/-
  The number of a small integer is finite, and a quotient of
  a multiple of the integer and the multiplier.
-/
theorem ofInt_eq (hExact : Exact i) :
    (ofInt i).isFinite = true ∧
      (ofInt i).negative = decide (i < 0) ∧
      0 < (ofInt i).ratio.2 ∧
      (ofInt i).ratio.1 = i.natAbs * (ofInt i).ratio.2 := by
  by_cases hZero : i = 0
  · subst hZero
    refine ⟨by decide, by decide, by decide +kernel, ?_⟩
    rw [Int.natAbs_zero, Nat.zero_mul]
    decide +kernel
  · have hPos : i.natAbs ≠ 0 := Int.natAbs_ne_zero.2 hZero
    have hRatio : (ofInt i).ratio = _ :=
      ratio_ofRatio (decide (i < 0)) hPos hExact
    refine ⟨isFinite_ofRatio _ hPos hExact, ?_, ?_, ?_⟩
    · rw [ofInt, ofRatio, if_neg hPos]
      rfl
    · rw [hRatio]
      exact Nat.two_pow_pos _
    · rw [hRatio]
      rfl

theorem truncated_ofInt (hExact : Exact i) :
    (ofInt i).truncated = i := by
  rcases ofInt_eq hExact with ⟨-, hSign, hPos, hRatio⟩
  simp only [truncated, hRatio, hSign,
    Nat.mul_div_cancel _ hPos, decide_eq_true_eq]
  split <;> omega

theorem isWhole_ofInt (hExact : Exact i) :
    (ofInt i).isWhole = true := by
  rcases ofInt_eq hExact with ⟨hFinite, -, -, hRatio⟩
  simp [isWhole, hFinite, hRatio]

theorem isNaN_ofInt (hExact : Exact i) :
    (ofInt i).isNaN = false := by
  have hFinite := (ofInt_eq hExact).1
  rw [isFinite, decide_eq_true_iff] at hFinite
  rw [isNaN, decide_eq_false_iff_not]
  omega

theorem toInt64_ofInt (hExact : Exact i) :
    (ofInt i).toInt64 = i := by
  have hBound : i.natAbs < 2 ^ 53 := hExact
  rw [toInt64, isNaN_ofInt hExact, (ofInt_eq hExact).1,
    truncated_ofInt hExact]
  simp only [Bool.false_eq_true, if_false, if_true,
    leastInt64, mostInt64, Bounds.signed64]
  omega

/- The number of an integer compares like the integer. -/
theorem compareInt_ofInt
    (hExact : Exact i)
    (other : Int) :
    (ofInt i).compareInt other = compare i other := by
  rcases ofInt_eq hExact with ⟨hFinite, hSign, hPos, hRatio⟩
  have hScale : (0 : Int) < (ofInt i).ratio.2 :=
    Int.natCast_pos.2 hPos
  have hValue : (if decide (i < 0) = true then
        -((ofInt i).ratio.1 : Int)
      else (ofInt i).ratio.1) = i * (ofInt i).ratio.2 := by
    rw [hRatio]
    simp only [decide_eq_true_eq, Int.natCast_mul]
    split
    · rw [← Int.neg_mul]
      congr 1
      omega
    · congr 1
      omega
  simp only [compareInt, hFinite, if_true, hSign, hValue,
    compare, compareOfLessAndEq,
    Int.mul_lt_mul_right hScale,
    Int.mul_eq_mul_right_iff (Int.ne_of_gt hScale)]

------------------------------------------------------------
-- Integers of more bits
------------------------------------------------------------

theorem halfEven_le (num den : Nat) :
    halfEven num den ≤ num / den + 1 := by
  unfold halfEven
  dsimp only
  split
  · exact Nat.le_refl _
  · split <;> omega

/- What is beyond 53 bits is rounded to at most 53 bits. -/
theorem unitCount_le (hWide : 53 ≤ size.log2) :
    unitCount size 1 (size.log2 - 52) ≤ 2 * fractions := by
  have hUnit : (size.log2 : Int) - 52 =
      (size.log2 - 52 : Nat) := by
    omega
  have hSplit : 2 ^ (size.log2 - 52) * 2 ^ 53 =
      2 ^ (size.log2 + 1) := by
    rw [← Nat.pow_add]
    congr 1
    omega
  have hLess : size / 2 ^ (size.log2 - 52) < 2 ^ 53 := by
    rw [Nat.div_lt_iff_lt_mul (Nat.two_pow_pos _),
      Nat.mul_comm, hSplit]
    exact Nat.lt_log2_self
  rw [hUnit, unitCount, if_pos (Int.natCast_nonneg _),
    Int.toNat_natCast, Nat.one_mul, Nat.pow_eq]
  exact (halfEven_le _ _).trans hLess

/- Integers of fewer than 1024 bits stay finite. -/
theorem isFinite_ofRatio_of_log2_lt
    (negative : Bool)
    (hLog : size.log2 < 1023) :
    (ofRatio negative size 1).isFinite = true := by
  by_cases hZero : size = 0
  · subst hZero
    cases negative <;> decide
  by_cases hSmall : size < 2 ^ 53
  · exact isFinite_ofRatio negative hZero hSmall
  have hWide : 53 ≤ size.log2 :=
    (Nat.le_log2 hZero).2 (Nat.le_of_not_lt hSmall)
  have hCount := unitCount_le hWide
  have hScale : ((size.log2 : Int) - 52 + 1074).toNat =
      size.log2 + 1022 := by
    omega
  simp only [ofRatio, if_neg hZero, unitExponent_eq hZero,
    hScale, saturated, isFinite, decide_eq_true_iff]
  unfold infiniteMagnitude fractions at *
  omega

theorem isFinite_ofInt (hSize : i.natAbs < 2 ^ 64) :
    (ofInt i).isFinite = true := by
  apply isFinite_ofRatio_of_log2_lt
  by_cases hZero : i.natAbs = 0
  · rw [hZero]
    decide
  · exact ((Nat.log2_lt hZero).2 hSize).trans (by decide)

end Number

end SparseTables

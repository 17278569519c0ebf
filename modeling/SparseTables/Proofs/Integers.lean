import Mathlib.NumberTheory.Padics.PadicVal.Basic
import SparseTables.Proofs.Number
import SparseTables.Proofs.Program.Ending
import SparseTables.Proofs.Session.Outcomes

/-
  This file shows which integers become scalars, and which
  ones are read from the cells of a row and from the result
  of a query.

  A number without a fraction is read as the integer that it
  is if that is one of 64 bits; any other one is read as the
  nearest bound.  An integer in the result of a query becomes
  a number first, and the same integer again if a number
  holds it.

  A number holds an integer that has no more than 53 bits
  before its zeros.  An integer that is to become a scalar is
  compared with what is left of its number without a bound,
  so that no bound can hide that it was rounded.

  Main declarations:
    * `Number.value_eq_iff`
    * `Number.isWhole_iff`
    * `Number.value_ofInt`
    * `Number.oddPart`
    * `Number.exists_value_iff`
    * `Number.truncated_ofInt_eq_iff`
    * `Number.value_ofInt_eq_iff_toInt64`
    * `Check.exact_eq`
    * `Cell.value?`
    * `Cell.Within64`
    * `Cell.Representable`
    * `Session.fetch`
    * `Session.integers_are_exact`
    * `Session.integers_not_always_exact`
-/

namespace SparseTables

namespace Number

variable {x : Number} {i : Int}

------------------------------------------------------------
-- Numbers that are integers
------------------------------------------------------------

/- The numerator of a finite number with its sign. -/
def numerator (x : Number) : Int :=
  if x.negative then -(x.ratio.1 : Int) else x.ratio.1

theorem value_eq_div (x : Number) :
    x.value = (x.numerator : ℚ) / x.ratio.2 := by
  unfold value numerator
  cases x.negative <;> simp [neg_div]

theorem value_eq_iff :
    x.value = (i : ℚ) ↔ x.numerator = i * x.ratio.2 := by
  have hPos : (x.ratio.2 : ℚ) ≠ 0 :=
    Nat.cast_ne_zero.2 (Nat.ne_of_gt x.ratio_pos)
  rw [value_eq_div, div_eq_iff hPos]
  exact_mod_cast Iff.rfl

theorem natAbs_numerator (x : Number) :
    x.numerator.natAbs = x.ratio.1 := by
  unfold numerator
  split <;> omega

/- The size of an integer is that of its number. -/
theorem ratio_of_value (hValue : x.value = (i : ℚ)) :
    x.ratio.1 = i.natAbs * x.ratio.2 := by
  rw [← natAbs_numerator, value_eq_iff.1 hValue,
    Int.natAbs_mul, Int.natAbs_natCast]

theorem truncated_of_value (hValue : x.value = (i : ℚ)) :
    x.truncated = i := by
  have hNumerator := value_eq_iff.1 hValue
  have hRatio := ratio_of_value hValue
  have hPos : (0 : Int) < x.ratio.2 :=
    Int.natCast_pos.2 x.ratio_pos
  have hWhole : x.ratio.1 / x.ratio.2 = i.natAbs := by
    rw [hRatio, Nat.mul_div_cancel _ x.ratio_pos]
  unfold numerator at hNumerator
  simp only [truncated, hWhole]
  cases hNegative : x.negative with
  | true =>
      rw [hNegative, if_pos rfl] at hNumerator
      have hNonpos : i ≤ 0 := by
        by_contra hPositive
        have := Int.mul_pos (by omega : 0 < i) hPos
        omega
      rw [if_pos rfl]
      omega
  | false =>
      rw [hNegative, if_neg Bool.false_ne_true] at hNumerator
      have hNonneg : 0 ≤ i := by
        by_contra hNegative
        have := Int.mul_neg_of_neg_of_pos
          (by omega : i < 0) hPos
        omega
      rw [if_neg Bool.false_ne_true]
      omega

/- A finite number is whole if its value is an integer. -/
theorem isWhole_iff :
    x.isWhole = true ↔
      x.isFinite = true ∧ ∃ i : Int, x.value = (i : ℚ) := by
  rw [isWhole, Bool.and_eq_true, beq_iff_eq,
    ← Nat.dvd_iff_mod_eq_zero]
  refine and_congr_right fun _ => ⟨?_, ?_⟩
  · intro hDvd
    rw [← natAbs_numerator, ← Int.natCast_dvd] at hDvd
    rcases hDvd with ⟨i, hNumerator⟩
    refine ⟨i, value_eq_iff.2 ?_⟩
    rw [hNumerator, Int.mul_comm]
  · rintro ⟨i, hValue⟩
    refine ⟨i.natAbs, ?_⟩
    rw [ratio_of_value hValue, Nat.mul_comm]

theorem isNaN_of_isFinite (hFinite : x.isFinite = true) :
    x.isNaN = false := by
  rw [isFinite, decide_eq_true_iff] at hFinite
  rw [isNaN, decide_eq_false_iff_not]
  omega

/- An integer of 64 bits is not changed by the bounds. -/
theorem toInt64_of_value
    (hFinite : x.isFinite = true)
    (hValue : x.value = (i : ℚ))
    (hSigned : Bounds.isSigned64 i = true) :
    x.toInt64 = i := by
  rw [Bounds.isSigned64, decide_eq_true_iff] at hSigned
  rw [toInt64, isNaN_of_isFinite hFinite, hFinite,
    truncated_of_value hValue]
  simp only [Bool.false_eq_true, if_false, if_true,
    leastInt64, mostInt64]
  omega

theorem isSigned64_toInt64 (x : Number) :
    Bounds.isSigned64 x.toInt64 = true := by
  rw [Bounds.isSigned64, decide_eq_true_iff, toInt64]
  unfold leastInt64 mostInt64 Bounds.signed64
  split
  · omega
  · split
    · omega
    · split <;> omega

------------------------------------------------------------
-- Integers that a number holds
------------------------------------------------------------

theorem halfEven_mul
    (count : Nat)
    {den : Nat}
    (hDen : 0 < den) :
    halfEven (count * den) den = count := by
  simp [halfEven, Nat.mul_div_cancel _ hDen, hDen.ne]

section Wide

variable {count unit : Nat}

/- The significand decides the number of bits. -/
theorem log2_scaled
    (hLeast : fractions ≤ count)
    (hMost : count < 2 * fractions) :
    (count * 2 ^ unit).log2 = 52 + unit := by
  have hPos : 0 < 2 ^ unit := Nat.two_pow_pos unit
  have hLow : 2 ^ 52 ≤ count := hLeast
  have hHigh : count < 2 ^ 53 := hMost
  have hNonzero : count * 2 ^ unit ≠ 0 :=
    Nat.mul_ne_zero (by omega) hPos.ne'
  rw [Nat.log2_eq_iff hNonzero]
  constructor
  · rw [Nat.pow_add]
    exact Nat.mul_le_mul_right _ hLow
  · rw [show 52 + unit + 1 = 53 + unit by omega, Nat.pow_add]
    exact Nat.mul_lt_mul_of_pos_right hHigh hPos

/-
  An integer with 53 bits before its zeros is rounded to
  itself.
-/
theorem ofRatio_scaled
    (negative : Bool)
    (hLeast : fractions ≤ count)
    (hMost : count < 2 * fractions)
    (hUnit : unit ≤ 971) :
    (ofRatio negative (count * 2 ^ unit) 1).isFinite = true ∧
      (ofRatio negative (count * 2 ^ unit) 1).negative =
        negative ∧
      (ofRatio negative (count * 2 ^ unit) 1).ratio =
        (count * 2 ^ unit, 1) := by
  have hPos : 0 < 2 ^ unit := Nat.two_pow_pos unit
  have hNonzero : count * 2 ^ unit ≠ 0 := by
    refine Nat.mul_ne_zero ?_ hPos.ne'
    unfold fractions at hLeast
    omega
  have hLog : (count * 2 ^ unit).log2 = 52 + unit :=
    log2_scaled hLeast hMost
  have hExponent :
      unitExponent 53 (-1074) (count * 2 ^ unit) 1 = unit := by
    rw [unitExponent_eq hNonzero, hLog]
    omega
  have hCount : unitCount (count * 2 ^ unit) 1 unit =
      count := by
    rw [unitCount, if_pos (Int.natCast_nonneg unit),
      Int.toNat_natCast, Nat.one_mul, Nat.pow_eq,
      halfEven_mul count hPos]
  have hScale : ((unit : Int) + 1074).toNat = unit + 1074 := by
    omega
  have hMagnitude :
      (ofRatio negative (count * 2 ^ unit) 1).magnitude =
        (unit + 1074) * fractions + count := by
    simp only [ofRatio, if_neg hNonzero, hExponent, hCount,
      hScale, saturated]
    apply Nat.min_eq_right
    unfold infiniteMagnitude fractions at *
    omega
  have hNormal : ¬ (ofRatio negative (count * 2 ^ unit)
      1).magnitude < fractions := by
    rw [hMagnitude]
    omega
  refine ⟨?_, ?_, ?_⟩
  · rw [isFinite, decide_eq_true_iff, hMagnitude]
    unfold infiniteMagnitude fractions at *
    omega
  · rw [ofRatio, if_neg hNonzero]
    rfl
  · have hSignificand : (ofRatio negative (count * 2 ^ unit)
        1).significand = count := by
      rw [significand, if_neg hNormal, hMagnitude]
      unfold fractions at *
      omega
    have hPower : (ofRatio negative (count * 2 ^ unit)
        1).exponent = unit := by
      rw [exponent, if_neg hNormal, hMagnitude]
      unfold fractions at *
      omega
    rw [ratio, hSignificand, hPower,
      if_pos (Int.natCast_nonneg unit), Int.toNat_natCast,
      Nat.pow_eq]

end Wide

theorem significand_lt (x : Number) :
    x.significand < 2 * fractions := by
  unfold significand fractions
  split <;> omega

/- A finite integer beyond 53 bits has all of them. -/
theorem exists_scaled_of_value
    (hFinite : x.isFinite = true)
    (hValue : x.value = (i : ℚ))
    (hWide : ¬ Exact i) :
    ∃ count unit, fractions ≤ count ∧
      count < 2 * fractions ∧ unit ≤ 971 ∧
      i.natAbs = count * 2 ^ unit := by
  have hSize : 2 * fractions ≤ i.natAbs := not_lt.1 hWide
  have hRatio := ratio_of_value hValue
  rw [ratio] at hRatio
  split at hRatio
  · rename_i hWhole
    have hNormal : ¬ x.magnitude < fractions := by
      intro hSmall
      rw [exponent, if_pos hSmall] at hWhole
      omega
    refine ⟨x.significand, x.exponent.toNat, ?_,
      x.significand_lt, ?_, ?_⟩
    · rw [significand, if_neg hNormal]
      omega
    · rw [isFinite, decide_eq_true_iff] at hFinite
      rw [exponent, if_neg hNormal]
      unfold infiniteMagnitude fractions at *
      omega
    · simpa using hRatio.symm
  · have hPower : 0 < Nat.pow 2 (-x.exponent).toNat :=
      Nat.two_pow_pos _
    have hLe : i.natAbs ≤ x.significand := by
      rw [show x.significand = _ from hRatio]
      exact Nat.le_mul_of_pos_right _ hPower
    have hMost := x.significand_lt
    omega

theorem value_of_ratio
    (hSign : x.negative = decide (i < 0))
    (hRatio : x.ratio.1 = i.natAbs * x.ratio.2) :
    x.value = (i : ℚ) := by
  rw [value_eq_iff, numerator, hSign, hRatio]
  by_cases hNegative : i < 0
  · rw [decide_eq_true hNegative, if_pos rfl, Int.natCast_mul,
      ← Int.neg_mul]
    congr 1
    omega
  · rw [decide_eq_false hNegative, if_neg Bool.false_ne_true,
      Int.natCast_mul]
    congr 1
    omega

theorem value_ofInt_of_exact (hExact : Exact i) :
    (ofInt i).isFinite = true ∧ (ofInt i).value = (i : ℚ) := by
  rcases ofInt_eq hExact with ⟨hFinite, hSign, -, hRatio⟩
  exact ⟨hFinite, value_of_ratio hSign hRatio⟩

theorem value_ofInt_of_scaled
    {count unit : Nat}
    (hLeast : fractions ≤ count)
    (hMost : count < 2 * fractions)
    (hUnit : unit ≤ 971)
    (hSize : i.natAbs = count * 2 ^ unit) :
    (ofInt i).isFinite = true ∧ (ofInt i).value = (i : ℚ) := by
  rcases ofRatio_scaled (decide (i < 0)) hLeast hMost hUnit
    with ⟨hFinite, hSign, hRatio⟩
  rw [← hSize] at hFinite hSign hRatio
  refine ⟨hFinite, value_of_ratio hSign ?_⟩
  rw [ofInt, hRatio, Nat.mul_one]

/- An integer that is a finite number becomes that number. -/
theorem value_ofInt
    (hFinite : x.isFinite = true)
    (hValue : x.value = (i : ℚ)) :
    (ofInt i).isFinite = true ∧ (ofInt i).value = (i : ℚ) := by
  by_cases hExact : Exact i
  · exact value_ofInt_of_exact hExact
  · rcases exists_scaled_of_value hFinite hValue hExact with
      ⟨count, unit, hLeast, hMost, hUnit, hSize⟩
    exact value_ofInt_of_scaled hLeast hMost hUnit hSize

------------------------------------------------------------
-- Odd parts
------------------------------------------------------------

/- The part of an integer that two does not divide. -/
def oddPart (i : Int) : Nat :=
  i.natAbs / 2 ^ padicValNat 2 i.natAbs

@[simp] theorem oddPart_zero : oddPart 0 = 0 :=
  Nat.zero_div _

/- Any other way to take out twos leaves no less. -/
theorem oddPart_lt_iff {bound : Nat} :
    oddPart i < bound ↔ ∃ count unit,
      count < bound ∧ i.natAbs = count * 2 ^ unit := by
  constructor
  · intro hOdd
    exact ⟨oddPart i, padicValNat 2 i.natAbs, hOdd,
      (Nat.div_mul_cancel pow_padicValNat_dvd).symm⟩
  · rintro ⟨count, unit, hCount, hSize⟩
    by_cases hZero : i.natAbs = 0
    · simpa [oddPart, hZero] using Nat.zero_lt_of_lt hCount
    have hUnit : unit ≤ padicValNat 2 i.natAbs :=
      (padicValNat_dvd_iff_le hZero).1
        (hSize ▸ Nat.dvd_mul_left _ _)
    calc oddPart i
        ≤ i.natAbs / 2 ^ unit :=
          Nat.div_le_div_left
            (Nat.pow_le_pow_right Nat.two_pos hUnit)
            (Nat.two_pow_pos unit)
      _ = count := by
          rw [hSize, Nat.mul_div_cancel _ (Nat.two_pow_pos _)]
      _ < bound := hCount

/- Zeros of a wide integer can fill up its 53 bits. -/
theorem exists_scaled
    {count unit : Nat}
    (hCount : count < 2 ^ 53)
    (hWide : 2 ^ 53 ≤ count * 2 ^ unit) :
    ∃ digits zeros, fractions ≤ digits ∧
      digits < 2 * fractions ∧
      count * 2 ^ unit = digits * 2 ^ zeros := by
  have hNonzero : count ≠ 0 := by
    rintro rfl
    rw [Nat.zero_mul] at hWide
    omega
  have hMissing : 52 - count.log2 ≤ unit := by
    by_contra hFew
    have hLess : count * 2 ^ unit < 2 ^ 53 :=
      calc count * 2 ^ unit
          < 2 ^ (count.log2 + 1) * 2 ^ unit :=
            Nat.mul_lt_mul_of_pos_right Nat.lt_log2_self
              (Nat.two_pow_pos unit)
        _ = 2 ^ (count.log2 + 1 + unit) :=
            (Nat.pow_add _ _ _).symm
        _ ≤ 2 ^ 53 :=
            Nat.pow_le_pow_right Nat.two_pos (by omega)
    omega
  refine ⟨widened count, unit - (52 - count.log2),
    fractions_le_widened hNonzero hCount,
    widened_lt hCount, ?_⟩
  rw [widened, Nat.mul_assoc, ← Nat.pow_add,
    Nat.add_sub_cancel' hMissing]

/- The odd part decides if a number holds an integer. -/
theorem exists_value_iff (hSize : i.natAbs < 2 ^ 64) :
    (∃ x : Number, x.isFinite = true ∧ x.value = (i : ℚ)) ↔
      oddPart i < 2 ^ 53 := by
  rw [oddPart_lt_iff]
  by_cases hExact : Exact i
  · exact ⟨fun _ =>
        ⟨i.natAbs, 0, hExact, (Nat.mul_one _).symm⟩,
      fun _ => ⟨_, value_ofInt_of_exact hExact⟩⟩
  constructor
  · rintro ⟨x, hFinite, hValue⟩
    rcases exists_scaled_of_value hFinite hValue hExact with
      ⟨count, unit, -, hMost, -, hEq⟩
    exact ⟨count, unit, hMost, hEq⟩
  · rintro ⟨count, unit, hCount, hEq⟩
    rcases exists_scaled hCount (hEq ▸ not_lt.1 hExact) with
      ⟨digits, zeros, hLeast, hMost, hSame⟩
    rw [← hEq] at hSame
    have hPos : 0 < digits :=
      Nat.lt_of_lt_of_le (by decide) hLeast
    have hZeros : zeros < 64 := by
      rw [← Nat.pow_lt_pow_iff_right Nat.one_lt_two]
      exact (Nat.le_mul_of_pos_left _ hPos).trans_lt
        (hSame ▸ hSize)
    exact ⟨_, value_ofInt_of_scaled hLeast hMost (by omega)
      hSame⟩

theorem value_ofInt_eq_iff (hSize : i.natAbs < 2 ^ 64) :
    (ofInt i).value = (i : ℚ) ↔
      ∃ x : Number, x.isFinite = true ∧ x.value = (i : ℚ) :=
  ⟨fun hValue => ⟨_, isFinite_ofInt hSize, hValue⟩,
    fun ⟨_, hFinite, hValue⟩ =>
      (value_ofInt hFinite hValue).2⟩

------------------------------------------------------------
-- Integers that were rounded
------------------------------------------------------------

theorem natAbs_truncated (x : Number) :
    x.truncated.natAbs = x.ratio.1 / x.ratio.2 := by
  simp only [truncated]
  split <;> simp only [Int.natAbs_neg, Int.natAbs_natCast]

/- A number of 53 bits before the point has none behind it. -/
theorem value_truncated (hWide : ¬ Exact x.truncated) :
    x.value = (x.truncated : ℚ) := by
  have hWhole : x.ratio.2 = 1 := by
    rw [Exact, natAbs_truncated] at hWide
    by_cases hPower : 0 ≤ x.exponent
    · rw [ratio, if_pos hPower]
    · have hMost : x.ratio.1 < 2 ^ 53 := by
        rw [ratio, if_neg hPower]
        exact x.significand_lt
      exact absurd ((Nat.div_le_self _ _).trans_lt hMost) hWide
  rw [value_eq_iff, numerator, truncated, hWhole]
  simp

/- Without a bound no loss is hidden. -/
theorem truncated_ofInt_eq_iff :
    (ofInt i).truncated = i ↔ (ofInt i).value = (i : ℚ) := by
  refine ⟨fun hTruncated => ?_, truncated_of_value⟩
  by_cases hExact : Exact i
  · exact (value_ofInt_of_exact hExact).2
  · rw [value_truncated (hTruncated.symm ▸ hExact), hTruncated]

theorem natAbs_lt_of_isSigned64
    (hSigned : Bounds.isSigned64 i = true) :
    i.natAbs < 2 ^ 64 := by
  rw [Bounds.isSigned64, decide_eq_true_iff] at hSigned
  unfold Bounds.signed64 at hSigned
  omega

/- The bounds of 64 bits hide that the greatest is rounded. -/
theorem value_ofInt_eq_iff_toInt64
    (hSigned : Bounds.isSigned64 i = true) :
    (ofInt i).value = (i : ℚ) ↔
      (ofInt i).toInt64 = i ∧ i ≠ mostInt64 := by
  have hFinite := isFinite_ofInt
    (natAbs_lt_of_isSigned64 hSigned)
  constructor
  · intro hValue
    refine ⟨toInt64_of_value hFinite hValue hSigned, ?_⟩
    rintro rfl
    exact absurd (value_eq_iff.1 hValue) (by decide +kernel)
  · rintro ⟨hRead, hLess⟩
    by_cases hLeast : i = leastInt64
    · subst hLeast
      exact value_eq_iff.2 (by decide +kernel)
    · rw [toInt64, isNaN_of_isFinite hFinite, hFinite] at hRead
      simp only [Bool.false_eq_true, if_false, if_true]
        at hRead
      exact truncated_ofInt_eq_iff.1 (by omega)

/- Equal numbers have one value. -/
theorem value_eq_of_same
    {y : Number}
    (hSame : x.same y = true) :
    x.value = y.value := by
  rw [same, beq_iff_eq] at hSame
  refine le_antisymm (not_lt.1 fun hLess => ?_)
    (not_lt.1 fun hLess => ?_) <;>
  · rw [value_lt_iff] at hLess
    omega

end Number

------------------------------------------------------------
-- Integers that become scalars
------------------------------------------------------------

/- An integer is refused if it is rounded. -/
theorem Check.exact_eq (i : Int) :
    Check.exact i =
      if (Number.ofInt i).value = (i : ℚ) then
        .ok (.ofInt i)
      else
        .error (.validation (.inexact i)) := by
  simp only [Check.exact, Scalar.exactInt?,
    Number.truncated_ofInt_eq_iff]
  by_cases hValue : (Number.ofInt i).value = (i : ℚ)
  · rw [if_pos hValue, if_pos hValue]
    rfl
  · rw [if_neg hValue, if_neg hValue]

theorem Check.exact_eq_ok_iff {i : Int} {content : Scalar} :
    Check.exact i = .ok content ↔
      (Number.ofInt i).value = (i : ℚ) ∧
        content = .ofInt i := by
  rw [Check.exact_eq]
  split <;> simp_all [eq_comm]

theorem Check.exists_exact_eq_ok_iff {i : Int} :
    (∃ content, Check.exact i = .ok content) ↔
      (Number.ofInt i).value = (i : ℚ) := by
  simp only [Check.exact_eq_ok_iff, exists_and_left,
    exists_eq, and_true]

/- Different integers become different scalars. -/
theorem Check.same_iff_of_exact
    {i j : Int}
    {a b : Scalar}
    (hLeft : Check.exact i = .ok a)
    (hRight : Check.exact j = .ok b) :
    a.same b = true ↔ i = j := by
  rcases Check.exact_eq_ok_iff.1 hLeft with ⟨hValue, rfl⟩
  rcases Check.exact_eq_ok_iff.1 hRight with ⟨hValue', rfl⟩
  constructor
  · intro hSame
    have hValues : (Number.ofInt i).value =
        (Number.ofInt j).value :=
      Number.value_eq_of_same hSame
    rwa [hValue, hValue', Int.cast_inj] at hValues
  · rintro rfl
    exact Scalar.same_iff_normalized.2 rfl

theorem Check.isStorable_of_exact
    {i : Int}
    {content : Scalar}
    (hSigned : Bounds.isSigned64 i = true)
    (hContent : Check.exact i = .ok content) :
    content.isStorable = true := by
  have hFinite := Number.isFinite_ofInt
    (Number.natAbs_lt_of_isSigned64 hSigned)
  rw [(Check.exact_eq_ok_iff.1 hContent).2, Scalar.ofInt,
    Scalar.isStorable, Number.isNaN_of_isFinite hFinite]
  rfl

------------------------------------------------------------
-- Cells
------------------------------------------------------------

namespace Cell

/- The number in a cell, unless it is no finite one. -/
def value? : Cell → Option ℚ
  | integer i => some i
  | real x => if x.isFinite then some x.value else none
  | _ => none

/- A real without a fraction is an integer of 64 bits. -/
def Within64 : Cell → Prop
  | real x =>
      ∀ i : Int, (real x).value? = some (i : ℚ) →
        Bounds.isSigned64 i = true
  | _ => True

/-
  An integer is the greatest of 64 bits, which rounding and
  bounding give back, or the value of some number.
-/
def Representable : Cell → Prop
  | integer i =>
      Bounds.isSigned64 i = true ∧
        (i = Number.mostInt64 ∨
          ∃ x : Number, x.isFinite = true ∧ x.value = (i : ℚ))
  | _ => True

theorem value?_real_eq_some_iff {x : Number} {i : Int} :
    (real x).value? = some (i : ℚ) ↔
      x.isFinite = true ∧ x.value = (i : ℚ) := by
  rw [value?]
  split <;> simp_all

theorem value?_integer_eq_some_iff {i j : Int} :
    (integer j).value? = some (i : ℚ) ↔ j = i := by
  rw [value?, Option.some.injEq, Int.cast_inj]

theorem isWhole_iff {x : Number} :
    x.isWhole = true ↔
      ∃ i : Int, (real x).value? = some (i : ℚ) := by
  simp only [Number.isWhole_iff, value?_real_eq_some_iff,
    exists_and_left]

/- Reals without a fraction are read as what they are. -/
theorem toInt64_eq_iff
    {x : Number}
    (hWithin : (real x).Within64)
    (hWhole : x.isWhole = true)
    (i : Int) :
    x.toInt64 = i ↔ (real x).value? = some (i : ℚ) := by
  rcases isWhole_iff.1 hWhole with ⟨j, hValue⟩
  rcases value?_real_eq_some_iff.1 hValue with
    ⟨hFinite, hEqual⟩
  rw [Number.toInt64_of_value hFinite hEqual
    (hWithin j hValue), hValue, Option.some.injEq,
    Int.cast_inj]

/- What an integer becomes is read as that integer. -/
theorem read_of_representable
    {i : Int}
    (hHeld : (integer i).Representable) :
    (Number.ofInt i).isWhole = true ∧
      (Number.ofInt i).toInt64 = i := by
  rcases hHeld with ⟨hSigned, rfl | ⟨x, hFinite, hValue⟩⟩
  · decide +kernel
  · rcases Number.value_ofInt hFinite hValue with
      ⟨hSame, hEqual⟩
    exact ⟨Number.isWhole_iff.2 ⟨hSame, i, hEqual⟩,
      Number.toInt64_of_value hSame hEqual hSigned⟩

theorem representable_of_read
    {i : Int}
    (hRead : (Number.ofInt i).toInt64 = i) :
    (integer i).Representable := by
  have hSigned := (Number.ofInt i).isSigned64_toInt64
  rw [hRead] at hSigned
  refine ⟨hSigned, ?_⟩
  by_cases hMost : i = Number.mostInt64
  · exact .inl hMost
  · have hValue :=
      (Number.value_ofInt_eq_iff_toInt64 hSigned).2
        ⟨hRead, hMost⟩
    exact .inr ((Number.value_ofInt_eq_iff
      (Number.natAbs_lt_of_isSigned64 hSigned)).1 hValue)

theorem within64_of_value
    {x : Number}
    {i : Int}
    (hValue : (real x).value? = some (i : ℚ))
    (hSigned : Bounds.isSigned64 i = true) :
    (real x).Within64 := by
  intro j hOther
  rw [hValue, Option.some.injEq, Int.cast_inj] at hOther
  exact hOther ▸ hSigned

/- What is read is an integer of 64 bits in any case. -/
theorem within64_of_toInt64
    {x : Number}
    (hExact : x.isWhole = true →
      (real x).value? = some (x.toInt64 : ℚ)) :
    (real x).Within64 := by
  intro i hValue
  have hRead := hExact (isWhole_iff.2 ⟨i, hValue⟩)
  rw [hValue, Option.some.injEq, Int.cast_inj] at hRead
  exact hRead ▸ x.isSigned64_toInt64

end Cell

------------------------------------------------------------
-- Rows
------------------------------------------------------------

namespace Row

variable {row : Row} {column : Nat} {cell : Cell}

theorem cell_eq (hCell : row.cells[column]? = some cell) :
    row.cell column = .ok cell := by
  rw [Row.cell, hCell]

theorem integer_eq_ok_iff
    (hCell : row.cells[column]? = some cell)
    (hWithin : cell.Within64)
    (i : Int) :
    row.integer column = .ok i ↔
      cell.value? = some (i : ℚ) := by
  simp only [integer, cell_eq hCell, bind, Except.bind]
  cases cell with
  | integer j =>
      simp only [Except.ok.injEq]
      exact Cell.value?_integer_eq_some_iff.symm
  | real x =>
      by_cases hWhole : x.isWhole = true
      · simp only [hWhole, if_true, Except.ok.injEq]
        exact Cell.toInt64_eq_iff hWithin hWhole i
      · have hNot : ¬ (Cell.real x).value? = some (i : ℚ) :=
          fun hValue => hWhole (Cell.isWhole_iff.2 ⟨i, hValue⟩)
        simp [hWhole, hNot]
  | null => simp [Cell.value?]
  | text s => simp [Cell.value?]
  | blob bytes => simp [Cell.value?]

theorem within64_of_integer
    (hCell : row.cells[column]? = some cell)
    (hExact : ∀ i : Int, row.integer column = .ok i ↔
      cell.value? = some (i : ℚ)) :
    cell.Within64 := by
  cases cell with
  | real x =>
      refine Cell.within64_of_toInt64 fun hWhole => ?_
      refine (hExact x.toInt64).1 ?_
      simp [integer, cell_eq hCell, bind, Except.bind, hWhole]
  | _ => trivial

/- What is no integer is refused. -/
theorem integer_eq_error
    (hCell : row.cells[column]? = some cell)
    (hNone : ∀ i : Int, cell.value? ≠ some (i : ℚ)) :
    row.integer column =
      .error (.store (.notInteger column cell)) := by
  simp only [integer, cell_eq hCell, bind, Except.bind]
  cases cell with
  | integer j => exact absurd rfl (hNone j)
  | real x =>
      have hWhole : ¬ x.isWhole = true :=
        fun hWhole => (Cell.isWhole_iff.1 hWhole).elim hNone
      simp [hWhole]
  | null => rfl
  | text s => rfl
  | blob bytes => rfl

end Row

------------------------------------------------------------
-- Results of queries
------------------------------------------------------------

/- The first cell of the first row. -/
def RowSet.firstCell? (found : RowSet) : Option Cell :=
  found.rows.head?.bind fun row => row.cells.head?

namespace Session

theorem integerOf_scalar?_eq_ok_iff
    {cell : Cell}
    (hWithin : cell.Within64)
    (hHeld : cell.Representable)
    (i : Int) :
    integerOf cell.scalar? = .ok (some i) ↔
      cell.value? = some (i : ℚ) := by
  cases cell with
  | integer j =>
      rcases Cell.read_of_representable hHeld with
        ⟨hWhole, hRead⟩
      simp only [Cell.scalar?, Scalar.ofInt, integerOf, hWhole,
        if_true, hRead, Except.ok.injEq, Option.some.injEq]
      exact Cell.value?_integer_eq_some_iff.symm
  | real x =>
      by_cases hWhole : x.isWhole = true
      · simp only [Cell.scalar?, integerOf, hWhole, if_true,
          Except.ok.injEq, Option.some.injEq]
        exact Cell.toInt64_eq_iff hWithin hWhole i
      · have hNot : ¬ (Cell.real x).value? = some (i : ℚ) :=
          fun hValue => hWhole (Cell.isWhole_iff.2 ⟨i, hValue⟩)
        simp [Cell.scalar?, integerOf, hWhole, hNot]
  | null => simp [Cell.scalar?, Cell.value?, integerOf]
  | text s => simp [Cell.scalar?, Cell.value?, integerOf]
  | blob bytes => simp [Cell.scalar?, Cell.value?, integerOf]

theorem exact_of_integerOf_scalar?
    {cell : Cell}
    (hExact : ∀ i : Int,
      integerOf cell.scalar? = .ok (some i) ↔
        cell.value? = some (i : ℚ)) :
    cell.Within64 ∧ cell.Representable := by
  cases cell with
  | integer j =>
      have hRead := (hExact j).2 rfl
      simp only [Cell.scalar?, Scalar.ofInt, integerOf] at hRead
      split at hRead
      · refine ⟨trivial, Cell.representable_of_read ?_⟩
        simpa using hRead
      · cases hRead
  | real x =>
      refine ⟨Cell.within64_of_toInt64 fun hWhole => ?_,
        trivial⟩
      refine (hExact x.toInt64).1 ?_
      simp [Cell.scalar?, integerOf, hWhole]
  | _ => exact ⟨trivial, trivial⟩

/- A number or a text that is no integer is refused. -/
theorem integerOf_scalar?_eq_error
    {cell : Cell}
    (hNone : ∀ i : Int, cell.value? ≠ some (i : ℚ))
    {content : Scalar}
    (hContent : cell.scalar? = some content) :
    integerOf cell.scalar? =
      .error (.validation (.notInteger content)) := by
  cases cell with
  | integer j => exact absurd rfl (hNone j)
  | real x =>
      cases hContent
      have hWhole : ¬ x.isWhole = true :=
        fun hWhole => (Cell.isWhole_iff.1 hWhole).elim hNone
      simp [Cell.scalar?, integerOf, hWhole]
  | text s =>
      cases hContent
      rfl
  | null => cases hContent
  | blob bytes => cases hContent

/- Run a query, and leave its result as the store gives it. -/
def fetch
    (policies : Policies)
    (query : Select) : Program RowSet := do
  let (plan, params) ← compile policies query
  Program.run (.select plan params)

/- The integer of a query is read from its first cell. -/
theorem integer_eq_fetch
    (policies : Policies)
    (query : Select) :
    integer policies query =
      fetch policies query >>= fun found =>
        .done (integerOf
          (found.firstCell?.bind Cell.scalar?)) := by
  have hFirst (found : RowSet) :
      (found.rows.map fun row =>
        row.cells.map Cell.scalar?).head?.bind firstCell =
          found.firstCell?.bind Cell.scalar? := by
    rcases found with
      ⟨columns, _ | ⟨⟨_ | ⟨cell, cells⟩⟩, rows⟩⟩ <;> rfl
  simp only [integer, scalar, select, fetch, bind_assoc,
    pure_bind, hFirst]

theorem advance_integer
    {policies : Policies}
    {query : Select}
    {shared after : Shared}
    {found : RowSet}
    (hFound : (fetch policies query).advance shared =
      (.finished (.ok found), after)) :
    (integer policies query).advance shared =
      (.finished
        (integerOf (found.firstCell?.bind Cell.scalar?)),
        after) := by
  rw [integer_eq_fetch]
  exact Program.advance_andThen _ hFound

/-
  The integer that is read from a cell of a row, or from the
  first cell of the result of a query, is the number in that
  cell, and any other number or text is refused.

  So it is if and only if no number without a fraction lies
  beyond the integers of 64 bits, and an integer that became
  a number on its way lost nothing.
-/
theorem integers_are_exact
    (row : Row)
    (column : Nat)
    (cell : Cell)
    (policies : Policies)
    (query : Select)
    (shared after : Shared)
    (found : RowSet) :
    (row.cells[column]? = some cell →
      ((∀ i : Int, row.integer column = .ok i ↔
          cell.value? = some (i : ℚ)) ↔
        cell.Within64) ∧
      ((∀ i : Int, cell.value? ≠ some (i : ℚ)) →
        row.integer column =
          .error (.store (.notInteger column cell)))) ∧
    ((fetch policies query).advance shared =
        (.finished (.ok found), after) →
      ((∀ i : Int,
          (integer policies query).advance shared =
              (.finished (.ok (some i)), after) ↔
            ∃ first ∈ found.firstCell?,
              first.value? = some (i : ℚ)) ↔
        ∀ first ∈ found.firstCell?,
          first.Within64 ∧ first.Representable) ∧
      ∀ first ∈ found.firstCell?,
        (∀ i : Int, first.value? ≠ some (i : ℚ)) →
          ∀ content ∈ first.scalar?,
            (integer policies query).advance shared =
              (.finished (.error
                (.validation (.notInteger content))),
                after)) := by
  constructor
  · intro hCell
    exact ⟨⟨Row.within64_of_integer hCell,
      Row.integer_eq_ok_iff hCell⟩, Row.integer_eq_error hCell⟩
  · intro hFound
    rw [advance_integer hFound]
    cases hFirst : found.firstCell? with
    | none => simp [integerOf]
    | some first =>
        simp only [Option.bind_some, Option.mem_def,
          Option.some.injEq, forall_eq', exists_eq_left',
          Prod.mk.injEq, Progress.finished.injEq, and_true]
        refine ⟨⟨exact_of_integerOf_scalar?, ?_⟩, ?_⟩
        · rintro ⟨hWithin, hHeld⟩
          exact integerOf_scalar?_eq_ok_iff hWithin hHeld
        · exact fun hNone content hContent =>
            integerOf_scalar?_eq_error hNone hContent

/- A store with one item and one number. -/
def withValue (x : Number) : Shared :=
  ((define default
    ⟨"t", .text "k", [("a", some (.number x))]⟩).advance
      Moment.new.shared).2

/- The query for the number. -/
def forValue : Select :=
  (Select.on "t").column "a"

/-
  The greatest number below 2 ^ 63 and the least integer of
  64 bits are read as they are.
-/
theorem integers_are_exact_outermost :
    (Row.mk [.real (.ofInt 9223372036854774784)]).integer 0 =
        .ok 9223372036854774784 ∧
      ((integer default forValue).advance
          (withValue (.ofInt (-9223372036854775808)))).1 =
        .finished (.ok (some (-9223372036854775808))) := by
  have hRow : (Cell.real (.ofInt 9223372036854774784)).value? =
      some ((9223372036854774784 : Int) : ℚ) :=
    Cell.value?_real_eq_some_iff.2
      ⟨by decide +kernel,
        Number.value_eq_iff.2 (by decide +kernel)⟩
  have hCell :
      (Cell.real (.ofInt (-9223372036854775808))).value? =
        some ((-9223372036854775808 : Int) : ℚ) :=
    Cell.value?_real_eq_some_iff.2
      ⟨by decide +kernel,
        Number.value_eq_iff.2 (by decide +kernel)⟩
  have hFound : (fetch default forValue).advance
      (withValue (.ofInt (-9223372036854775808))) =
        (.finished (.ok ⟨["a"],
          [⟨[.real (.ofInt (-9223372036854775808))]⟩]⟩), _) :=
    Prod.ext (Progress.eq_of_result? (by decide +kernel)) rfl
  have hFits : ∀ cell ∈ (RowSet.mk ["a"]
      [⟨[.real (.ofInt (-9223372036854775808))]⟩]).firstCell?,
      cell.Within64 ∧ cell.Representable := by
    intro cell hMem
    cases hMem
    exact ⟨Cell.within64_of_value hCell (by decide), trivial⟩
  rcases integers_are_exact
    ⟨[.real (.ofInt 9223372036854774784)]⟩ 0 _ default forValue
      (withValue (.ofInt (-9223372036854775808))) _ _ with
    ⟨hRows, hQueries⟩
  have hWithin := Cell.within64_of_value hRow (by decide)
  exact ⟨((hRows rfl).1.2 hWithin _).2 hRow,
    congrArg Prod.fst
      (((hQueries hFound).1.2 hFits _).2 ⟨_, rfl, hCell⟩)⟩

/- The least number beyond the integers of 64 bits. -/
def beyond : Number :=
  .ofInt 9223372036854775808

/-
  It is read as the greatest integer of 64 bits, from a row
  as from the result of a query.
-/
theorem integers_not_always_exact :
    (¬ ∀ (row : Row) (column : Nat) (cell : Cell) (i : Int),
      row.cells[column]? = some cell →
      row.integer column = .ok i →
      cell.value? = some (i : ℚ)) ∧
    ¬ ∀ (policies : Policies) (query : Select)
        (shared after : Shared) (found : RowSet) (i : Int),
      (fetch policies query).advance shared =
        (.finished (.ok found), after) →
      (integer policies query).advance shared =
        (.finished (.ok (some i)), after) →
      ∃ cell ∈ found.firstCell?,
        cell.value? = some (i : ℚ) := by
  have hDiffers : ¬ (Cell.real beyond).value? =
      some ((9223372036854775807 : Int) : ℚ) := by
    rw [Cell.value?_real_eq_some_iff, Number.value_eq_iff]
    decide +kernel
  constructor
  · intro hAll
    have hRow : (Row.mk [.real beyond]).integer 0 =
        .ok 9223372036854775807 := by
      decide +kernel
    exact hDiffers (hAll _ 0 _ _ rfl hRow)
  · intro hAll
    have hFound : (fetch default forValue).advance
        (withValue beyond) =
          (.finished (.ok ⟨["a"], [⟨[.real beyond]⟩]⟩), _) :=
      Prod.ext (Progress.eq_of_result? (by decide +kernel)) rfl
    have hRead : integerOf (Cell.real beyond).scalar? =
        .ok (some 9223372036854775807) := by
      decide +kernel
    have hInteger := advance_integer hFound
    rw [show (RowSet.firstCell? _).bind Cell.scalar? =
      (Cell.real beyond).scalar? from rfl, hRead] at hInteger
    rcases hAll _ _ _ _ _ _ hFound hInteger with
      ⟨cell, hCell, hValue⟩
    cases hCell
    exact hDiffers hValue

end Session

end SparseTables

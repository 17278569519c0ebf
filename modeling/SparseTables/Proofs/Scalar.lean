import SparseTables.Scalar

/-
  This file relates the equality of scalars to their normal
  forms: equal scalars are those that have the same normal
  form.

  Main declarations:
    * `Number.same_iff_normalized`
    * `Scalar.same_iff_normalized`
-/

namespace SparseTables

namespace Number

theorem isZero_iff {x : Number} :
    x.isZero = true ↔ x.magnitude = 0 := by
  simp [isZero]

theorem isZero_iff_order {x : Number} :
    x.isZero = true ↔ x.order = 0 := by
  rw [isZero_iff, order]
  split <;> omega

theorem eq_of_order_of_ne_zero
    {x y : Number}
    (hOrder : x.order = y.order)
    (hNonzero : x.order ≠ 0) :
    x = y := by
  rcases x with ⟨negative, magnitude, bounded⟩
  rcases y with ⟨negative', magnitude', bounded'⟩
  have hMagnitude : magnitude = magnitude' := by
    cases negative <;> cases negative' <;>
      simp only [order] at hOrder hNonzero <;> grind
  have hNegative : negative = negative' := by
    cases negative <;> cases negative' <;>
      simp only [order] at hOrder hNonzero <;> grind
  subst hMagnitude hNegative
  rfl

@[simp] theorem order_normalized (x : Number) :
    x.normalized.order = x.order := by
  unfold normalized
  split
  · rename_i hZero
    rw [isZero_iff_order.1 hZero]
    rfl
  · rfl

/- Equal numbers have the same normal form. -/
theorem same_iff_normalized {x y : Number} :
    x.same y = true ↔ x.normalized = y.normalized := by
  rw [same, beq_iff_eq]
  constructor
  · intro hOrder
    by_cases hZero : x.order = 0
    · have hOther : y.order = 0 := hOrder ▸ hZero
      rw [normalized, normalized,
        if_pos (isZero_iff_order.2 hZero),
        if_pos (isZero_iff_order.2 hOther)]
    · rw [eq_of_order_of_ne_zero hOrder hZero]
  · intro hSame
    rw [← order_normalized x, hSame, order_normalized]

@[simp] theorem normalized_normalized (x : Number) :
    x.normalized.normalized = x.normalized :=
  same_iff_normalized.1 (by simp [same])

@[simp] theorem isNaN_normalized (x : Number) :
    x.normalized.isNaN = x.isNaN := by
  unfold normalized
  split
  · rename_i hZero
    rw [isZero_iff] at hZero
    simp [isNaN, hZero, zero, saturated]
  · rfl

end Number

namespace Scalar

/- Equal scalars have the same normal form. -/
theorem same_iff_normalized {a b : Scalar} :
    a.same b = true ↔ a.normalized = b.normalized := by
  cases a <;> cases b <;>
    simp [same, normalized, Number.same_iff_normalized]

theorem same_eq_decide (a b : Scalar) :
    a.same b = decide (a.normalized = b.normalized) := by
  rw [Bool.eq_iff_iff, same_iff_normalized,
    decide_eq_true_iff]

@[simp] theorem normalized_normalized (a : Scalar) :
    a.normalized.normalized = a.normalized := by
  cases a <;> simp [normalized]

@[simp] theorem isNumeric_normalized (a : Scalar) :
    a.normalized.isNumeric = a.isNumeric := by
  cases a <;> rfl

@[simp] theorem isStorable_normalized (a : Scalar) :
    a.normalized.isStorable = a.isStorable := by
  cases a <;> simp [normalized, isStorable]

end Scalar

end SparseTables

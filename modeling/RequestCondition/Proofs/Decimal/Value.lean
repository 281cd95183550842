import Mathlib.Algebra.Order.Field.Rat
import Mathlib.Data.Rat.Cast.Order
import Mathlib.Tactic.FieldSimp
import Mathlib.Tactic.Linarith
import Mathlib.Tactic.Ring
import RequestCondition.Decimal.Basic

/-!
# The value of a decimal

A decimal number stands for a rational one, its coefficient over a power of ten: `Decimal.value`.
The order of decimals is the order of their values, and `normalize` is canonical: it keeps the
value, and two numbers of one value have the same normal form (`normalize_eq_iff`).

Comparing takes both numbers to one scale first, and the coefficients may leave the range of
decimals there.  In the end only whole numbers are compared, so that does no harm.
-/

set_option autoImplicit false

namespace RequestCondition

namespace Decimal

/-- The number that a decimal stands for. -/
def value (d : Decimal) : ℚ := d.coefficient / 10 ^ d.scale

/-- The coefficient counts units of the last place. -/
theorem coefficient_eq (d : Decimal) : (d.coefficient : ℚ) = d.value * 10 ^ d.scale := by
  rw [value]
  field_simp

/-- A decimal is known by its value and its scale. -/
theorem eq_of_value_eq {a b : Decimal} (h : a.value = b.value) (hs : a.scale = b.scale) :
    a = b := by
  refine Decimal.ext ?_ hs
  have hc : (a.coefficient : ℚ) = b.coefficient := by
    rw [coefficient_eq, coefficient_eq, h, hs]
  exact_mod_cast hc

theorem value_lt_iff (a b : Decimal) :
    a.value < b.value ↔
      a.coefficient * powerOfTen b.scale < b.coefficient * powerOfTen a.scale := by
  rw [value, value, div_lt_div_iff₀ (by positivity) (by positivity)]
  simp only [powerOfTen, Nat.pow_eq]
  exact_mod_cast Iff.rfl

/-! ## Order

Decimals of different scales may have one value, so their order is that of the values and no more:
two that compare as equal need not be equal as decimals. -/

/-- **Decimals are ordered by their values.** -/
theorem cmp_eq_compare (a b : Decimal) : a.cmp b = compare a.value b.value := by
  rw [cmp]
  rcases lt_trichotomy a.value b.value with h | h | h
  · rw [compare_lt_iff_lt.2 h, compare_lt_iff_lt]
    exact (value_lt_iff a b).1 h
  · rw [compare_eq_iff_eq.2 h, compare_eq_iff_eq]
    refine le_antisymm ?_ ?_
    · exact not_lt.1 fun hlt ↦ absurd ((value_lt_iff b a).2 hlt) (by simp [h])
    · exact not_lt.1 fun hlt ↦ absurd ((value_lt_iff a b).2 hlt) (by simp [h])
  · rw [compare_gt_iff_gt.2 h, compare_gt_iff_gt]
    exact (value_lt_iff b a).1 h

theorem sameValue_iff (a b : Decimal) : a.sameValue b = true ↔ a.value = b.value := by
  rw [sameValue, beq_iff_eq, cmp_eq_compare, compare_eq_iff_eq]

theorem isZero_iff (d : Decimal) : d.isZero = true ↔ d.value = 0 := by
  rw [isZero, beq_iff_eq, value, div_eq_zero_iff]
  simp

/-! ## Normal forms

A normal form has no zero in its last place, unless it has no places.  Two that have one value have
as many places each as the other needs. -/

/-- Dropping zeros keeps the value. -/
theorem dropZeros_value (s : Nat) (c : Int) :
    ((dropZeros s c).1 : ℚ) / 10 ^ (dropZeros s c).2 = c / 10 ^ s := by
  induction s generalizing c with
  | zero => rfl
  | succ s ih =>
    rw [dropZeros]
    split
    · next h =>
      obtain ⟨k, rfl⟩ := Int.dvd_of_emod_eq_zero h
      rw [Int.mul_ediv_cancel_left _ (by decide), ih]
      push_cast
      field_simp
      ring
    · rfl

/-- No place is left that could be dropped. -/
theorem dropZeros_done (s : Nat) (c : Int) :
    (dropZeros s c).2 = 0 ∨ (dropZeros s c).1 % 10 ≠ 0 := by
  induction s generalizing c with
  | zero => exact .inl rfl
  | succ s ih =>
    rw [dropZeros]
    split
    · exact ih (c / 10)
    · next h => exact .inr h

theorem normalize_value (d : Decimal) : d.normalize.value = d.value :=
  dropZeros_value d.scale d.coefficient

/-- Of two numbers of one value, the one whose last place is not zero has no more places. -/
theorem scale_le_of_value_eq {a b : Decimal} (ha : a.scale = 0 ∨ a.coefficient % 10 ≠ 0)
    (h : a.value = b.value) : a.scale ≤ b.scale := by
  rcases ha with ha | ha
  · omega
  · by_contra hlt
    obtain ⟨k, hk⟩ : ∃ k, a.scale = b.scale + k + 1 := ⟨a.scale - b.scale - 1, by omega⟩
    have hc : (a.coefficient : ℚ) = b.coefficient * 10 ^ (k + 1) := by
      rw [coefficient_eq a, coefficient_eq b, h, hk]
      ring
    have hz : a.coefficient = b.coefficient * 10 ^ k * 10 := by
      rw [mul_assoc, ← pow_succ]
      exact_mod_cast hc
    exact ha (by rw [hz, Int.mul_emod_left])

/-- **Normal forms are canonical.**  Each has no more places than the other, so both have as many,
and with that the value says the coefficient. -/
theorem normalize_eq_iff (a b : Decimal) : a.normalize = b.normalize ↔ a.value = b.value := by
  constructor
  · intro h
    rw [← normalize_value a, h, normalize_value]
  · intro h
    have hv : a.normalize.value = b.normalize.value := by rw [normalize_value, normalize_value, h]
    have hs : a.normalize.scale = b.normalize.scale :=
      le_antisymm (scale_le_of_value_eq (dropZeros_done _ _) hv)
        (scale_le_of_value_eq (dropZeros_done _ _) hv.symm)
    exact eq_of_value_eq hv hs

end Decimal

end RequestCondition

import Mathlib.Data.Rat.Floor
import Mathlib.Tactic.GCongr
import RequestCondition.Proofs.Decimal.Value

/-!
# Rounding to a decimal

Not every number is the value of a decimal.  A number that is not negative is rounded to as many
places as its coefficient leaves room for, a half upwards; one that is too large altogether counts
as the largest decimal: `Rounds`.

How many places there is room for depends on the number, so two numbers may be rounded to different
places.  Rounding keeps their order nevertheless (`Rounds.mono`), since what there is no room for is
larger than everything there is room for with a place more.

`Rounds` is a relation, as nothing here depends on how the places are found.  It need not be shown
that a number can be rounded in one way only.  Keeping the order says so, if it is applied to one
number twice.

The three facts at the end are what the rest of the development uses: rounding keeps the order, it
does not change a number that is the value of a decimal, and it takes what is beyond the largest
decimal to that one (`Rounds.mono`, `Rounds.eq_of_exact`, `Rounds.eq_max`).
-/

set_option autoImplicit false

namespace RequestCondition

namespace Decimal

variable {v w r s : ℚ} {p q : ℕ}

/-- A number to `p` places, a half rounded up. -/
def roundTo (p : ℕ) (v : ℚ) : ℚ := ⌊v * 10 ^ p + 1 / 2⌋ / 10 ^ p

/-- How a number that is not negative is rounded to the value of a decimal. -/
inductive Rounds (v : ℚ) : ℚ → Prop
  /-- To `p` places, which there is room for; with one more there would be none, or there is nothing
  that it would be needed for. -/
  | toPlaces (p : ℕ) (le : p ≤ 28) (fits : v * 10 ^ p + 1 / 2 < bound)
      (last : roundTo p v = v ∨ p = 28 ∨ bound ≤ v * 10 ^ (p + 1) + 1 / 2) : Rounds v (roundTo p v)
  /-- To the largest decimal, where there is no room even without any places. -/
  | toMax (h : bound ≤ v + 1 / 2) : Rounds v max.value

theorem max_value : max.value = bound - 1 := by
  rw [value, max, bound]
  norm_num

theorem max_nonneg : 0 ≤ max.value := by
  rw [max_value, bound]
  norm_num

theorem min_value : min.value = -max.value := by
  rw [value, value, min, max]
  norm_num

/-! ## A fixed number of places

To a fixed number of places rounding is taking the nearest whole number, a half upwards, at another
unit.  It keeps the order there, and the numbers that have no more places. -/

/-- The nearest coefficient is the one that a number is rounded to. -/
theorem roundTo_eq {c : ℕ} (hle : (c : ℚ) - 1 / 2 ≤ v * 10 ^ p)
    (hlt : v * 10 ^ p < c + 1 / 2) : roundTo p v = c / 10 ^ p := by
  have hfloor : ⌊v * 10 ^ p + 1 / 2⌋ = (c : ℤ) := by
    rw [Int.floor_eq_iff]
    push_cast
    constructor <;> linarith
  rw [roundTo, hfloor, Int.cast_natCast]

/-- Rounding to as many places keeps the order. -/
theorem roundTo_mono (p : ℕ) (h : v ≤ w) : roundTo p v ≤ roundTo p w := by
  rw [roundTo, roundTo]
  gcongr

/-- What has no more than `p` places is not changed. -/
theorem roundTo_div {k : ℕ} (h : k ≤ p) (c : ℤ) : roundTo p (c / 10 ^ k) = c / 10 ^ k := by
  obtain ⟨i, rfl⟩ := Nat.exists_eq_add_of_le h
  have hc : (c / 10 ^ k * 10 ^ (k + i) : ℚ) = (c * 10 ^ i : ℤ) := by
    push_cast
    rw [pow_add]
    field_simp
  have hfloor : ⌊((c * 10 ^ i : ℤ) : ℚ) + 1 / 2⌋ = c * 10 ^ i := by
    rw [Int.floor_eq_iff]
    constructor <;> linarith
  rw [roundTo, hc, hfloor]
  push_cast
  rw [pow_add]
  field_simp

/-- Nor by more places is what `p` places have not changed. -/
theorem roundTo_of_le (h : roundTo p v = v) (hq : p ≤ q) : roundTo q v = v := by
  rw [← h, roundTo]
  exact roundTo_div hq _

theorem roundTo_nonneg (p : ℕ) (h : 0 ≤ v) : 0 ≤ roundTo p v := by
  have hzero : roundTo p 0 = 0 := by simpa using roundTo_div (Nat.zero_le p) 0
  rw [← hzero]
  exact roundTo_mono p h

/-- What there is room for is not larger than the largest coefficient. -/
theorem roundTo_le (h : v * 10 ^ p + 1 / 2 < bound) : roundTo p v ≤ max.value / 10 ^ p := by
  have hlt : ⌊v * 10 ^ p + 1 / 2⌋ < (bound : ℤ) := Int.floor_lt.2 (by exact_mod_cast h)
  have hle : (⌊v * 10 ^ p + 1 / 2⌋ : ℚ) ≤ bound - 1 := by
    have := Int.le_sub_one_of_lt hlt
    exact_mod_cast this
  rw [roundTo, max_value]
  gcongr

/-- What there is no room for with a place more is not smaller than the largest coefficient there,
even if it is rounded down. -/
theorem le_roundTo (h : bound ≤ v * 10 ^ (p + 1) + 1 / 2) :
    max.value / 10 ^ (p + 1) ≤ roundTo p v := by
  have hfloor : v * 10 ^ p + 1 / 2 < ⌊v * 10 ^ p + 1 / 2⌋ + 1 := Int.lt_floor_add_one _
  have hten : v * 10 ^ (p + 1) = 10 * (v * 10 ^ p) := by rw [pow_succ]; ring
  have hlt : (bound - 6 : ℤ) < 10 * ⌊v * 10 ^ p + 1 / 2⌋ := by
    have : (bound - 6 : ℚ) < 10 * ⌊v * 10 ^ p + 1 / 2⌋ := by linarith
    exact_mod_cast this
  -- the bound leaves the remainder six, so the next multiple of ten is beyond the bound
  have hle : (bound - 1 : ℤ) ≤ 10 * ⌊v * 10 ^ p + 1 / 2⌋ := by
    rw [bound] at hlt ⊢
    omega
  have hle' : (bound - 1 : ℚ) ≤ 10 * ⌊v * 10 ^ p + 1 / 2⌋ := by exact_mod_cast hle
  rw [max_value, roundTo, div_le_div_iff₀ (by positivity) (by positivity), pow_succ]
  calc (bound - 1 : ℚ) * 10 ^ p ≤ 10 * ⌊v * 10 ^ p + 1 / 2⌋ * 10 ^ p := by gcongr
    _ = ⌊v * 10 ^ p + 1 / 2⌋ * (10 ^ p * 10) := by ring

theorem max_div_le (p : ℕ) : max.value / 10 ^ p ≤ max.value :=
  div_le_self max_nonneg (one_le_pow₀ (by norm_num))

/-- With more places there is less room. -/
theorem max_div_le_div (h : p ≤ q) : max.value / 10 ^ q ≤ max.value / 10 ^ p := by
  have := max_nonneg
  gcongr
  norm_num

/-! ## As many places as there is room for

A smaller number has room for at least as many places.  If it has room for more, it is below the
largest coefficient at that many, and the larger number is not. -/

namespace Rounds

/-- The coefficient that is nearest, where there is no room for one more place. -/
theorem toNearest {c : ℕ} (hp : p ≤ 28) (hc : c < bound) (hle : (c : ℚ) - 1 / 2 ≤ v * 10 ^ p)
    (hlt : v * 10 ^ p < c + 1 / 2) (last : p = 28 ∨ bound ≤ v * 10 ^ (p + 1) + 1 / 2) :
    Rounds v (c / 10 ^ p) := by
  have hfits : v * 10 ^ p + 1 / 2 < bound := by
    have : (c : ℚ) + 1 ≤ bound := by exact_mod_cast hc
    linarith
  rw [← roundTo_eq hle hlt]
  exact toPlaces p hp hfits (.inr last)

/-- A number that would be rounded up to the bound has a place less, and its coefficient is a tenth
of the bound, rounded up. -/
theorem carry (hp : p ≤ 28) (hle : (bound : ℚ) - 1 / 2 ≤ v * 10 ^ (p + 1))
    (hlt : v * 10 ^ (p + 1) < bound) : Rounds v (((bound + 4) / 10 : ℕ) / 10 ^ p) := by
  have htenth : (((bound + 4) / 10 : ℕ) : ℚ) * 10 = bound + 4 := by
    rw [bound]
    norm_num
  have hlast : (bound : ℚ) ≤ v * 10 ^ (p + 1) + 1 / 2 := by linarith
  rw [pow_succ, ← mul_assoc] at hle hlt
  exact toNearest hp (by decide) (by linarith) (by linarith) (.inr hlast)

theorem nonneg (h : Rounds v r) (hv : 0 ≤ v) : 0 ≤ r := by
  cases h with
  | toPlaces p => exact roundTo_nonneg p hv
  | toMax => exact max_nonneg

/-- **Rounding keeps the order.**  Two numbers are rounded to as many places, or to different
numbers of them.  In the second case either the number with fewer places is exact, so that it is the
same with more, or there was no room for more, and then it is on the other side of the largest
coefficient. -/
theorem mono (hv : Rounds v r) (hw : Rounds w s) (hpos : 0 ≤ v) (h : v ≤ w) : r ≤ s := by
  have hpow {m n : ℕ} (hmn : m ≤ n) : v * 10 ^ m ≤ w * 10 ^ n :=
    mul_le_mul h (pow_le_pow_right₀ (by norm_num) hmn) (by positivity) (hpos.trans h)
  rcases hv with ⟨p, hp, hfits, hlast⟩ | hmax <;> rcases hw with ⟨q, hq, hfits', hlast'⟩ | hmax'
  · rcases lt_trichotomy p q with hlt | rfl | hlt
    -- there is no room for `v` beyond `p` places, and so none for `w`: `v` has not been changed
    · rcases hlast with heq | rfl | hfull
      · rw [heq, ← roundTo_of_le heq hlt.le]
        exact roundTo_mono q h
      · omega
      · have := hpow (Nat.succ_le_of_lt hlt)
        exact absurd hfull (not_le.2 (by rw [Nat.succ_eq_add_one] at this; linarith))
    · exact roundTo_mono p h
    -- `v` has more places, and its coefficient there is below the one that `w` has no room for
    · rcases hlast' with heq | rfl | hfull
      · rw [heq, ← roundTo_of_le heq hlt.le]
        exact roundTo_mono p h
      · omega
      · calc roundTo p v ≤ max.value / 10 ^ p := roundTo_le hfits
          _ ≤ max.value / 10 ^ (q + 1) := max_div_le_div hlt
          _ ≤ roundTo q w := le_roundTo hfull
  · exact (roundTo_le hfits).trans (max_div_le p)
  · have := hpow (Nat.zero_le q)
    rw [pow_zero, mul_one] at this
    linarith
  · exact le_rfl

/-- **A number that is the value of a decimal is not changed.**  There is room for its own places,
so it is rounded to at least as many, unless it is exact with fewer. -/
theorem eq_of_exact (h : Rounds v r) {c k : ℕ} (hc : c < bound) (hk : k ≤ 28)
    (hv : v = c / 10 ^ k) : r = v := by
  have hle : v * 10 ^ k ≤ bound - 1 := by
    have : (c : ℚ) + 1 ≤ bound := by exact_mod_cast hc
    rw [hv, div_mul_cancel₀ _ (by positivity)]
    linarith
  have hpos : 0 ≤ v := by
    rw [hv]
    positivity
  have hexact {p : ℕ} (hp : k ≤ p) : roundTo p v = v := by
    rw [hv]
    simpa using roundTo_div hp (c : ℤ)
  cases h with
  | toPlaces p hp hfits hlast =>
    rcases hlast with heq | rfl | hfull
    · exact heq
    · exact hexact hk
    · refine hexact (not_lt.1 fun hlt ↦ ?_)
      have : v * 10 ^ (p + 1) ≤ v * 10 ^ k := by
        gcongr
        · norm_num
        · exact hlt
      linarith
  | toMax hmax =>
    have : v * 10 ^ 0 ≤ v * 10 ^ k := by
      gcongr
      · norm_num
      · exact Nat.zero_le k
    rw [pow_zero, mul_one] at this
    linarith

/-- **A number beyond the largest decimal counts as that one**: there is no room for any places, and
there is none for a larger coefficient. -/
theorem eq_max (h : Rounds v r) (hv : max.value < v) : r = max.value := by
  have hmax : Rounds max.value max.value := by
    have hone : roundTo 0 max.value = max.value := by
      simpa [max_value] using roundTo_div (Nat.zero_le 0) (bound - 1 : ℤ)
    have hfits : max.value * 10 ^ 0 + 1 / 2 < bound := by
      rw [max_value]
      linarith
    simpa only [hone] using toPlaces 0 (by omega) hfits (.inl hone)
  refine le_antisymm ?_ (hmax.mono h max_nonneg hv.le)
  cases h with
  | toPlaces p _ hfits => exact (roundTo_le hfits).trans (max_div_le p)
  | toMax => exact le_rfl

end Rounds

/-! ## The decimals at the two ends

Other decimals may share their values with decimals of other scales.  The largest and the smallest
do not, so a number that is rounded to one of them is that decimal itself. -/

/-- A decimal of the largest size has no places, since with one its coefficient would be too
large. -/
theorem scale_eq_zero_of_abs_value_eq {d : Decimal} (h : |d.value| = max.value) : d.scale = 0 := by
  have hc : |d.coefficient| = (bound - 1 : ℤ) * 10 ^ d.scale := by
    have := congrArg abs (coefficient_eq d)
    rw [abs_mul, h, max_value, abs_of_pos (by positivity : (0 : ℚ) < 10 ^ d.scale)] at this
    exact_mod_cast this
  have hlt : |d.coefficient| < (bound : ℤ) := by
    rw [Int.abs_eq_natAbs]
    exact_mod_cast d.coefficient_lt
  by_contra hne
  obtain ⟨k, hk⟩ := Nat.exists_eq_succ_of_ne_zero hne
  have hone : (1 : ℤ) ≤ 10 ^ k := one_le_pow₀ (by norm_num)
  rw [hk, pow_succ, bound] at hc
  rw [bound] at hlt
  omega

/-- The largest decimal is the only one of its value. -/
theorem eq_max_of_value_eq {d : Decimal} (h : d.value = max.value) : d = max := by
  refine eq_of_value_eq h (scale_eq_zero_of_abs_value_eq ?_)
  rw [h, abs_of_nonneg max_nonneg]

theorem eq_min_of_value_eq {d : Decimal} (h : d.value = min.value) : d = min := by
  refine eq_of_value_eq h (scale_eq_zero_of_abs_value_eq ?_)
  rw [h, min_value, abs_neg, abs_of_nonneg max_nonneg]

end Decimal

end RequestCondition

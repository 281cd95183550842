import Mathlib.Algebra.Order.Ring.Abs
import RequestCondition.Double.Shortest
import RequestCondition.Proofs.Double.Nearest

/-!
# The text of a double next to a short decimal

A double that is next to a decimal of at most fifteen digits is written as that decimal
(`Nearest.shortest_eq`).

The interval of the numbers that round to the double (`Span.Holds`) has the decimal in it
(`Nearest.holds`).  It is narrower than the last place of the decimal (`Nearest.unit_lt`), so the
decimal is the only number with that last place in it (`Nearest.eq_of_holds`).  Hence the search
takes nothing at the places above (`Nearest.choose?_above`), where every number has that last place
as well, and the decimal itself when it comes to its last place (`Nearest.choose?_place`).

Fifteen digits are few enough because `10 ^ 15` is below `2 ^ 50`: three bits are left over, and the
last bit of the double is worth less than the last digit.  The decimal must not end in a zero, or
the search would stop at a place above.

The search starts at the first digit of the double, which is found by trying powers of ten upwards
from a guess.  The bounds in the last section are there to see that it tries enough of them.
-/

set_option autoImplicit false

namespace RequestCondition

/-! ## Powers of ten

A power of ten is kept as a ratio of whole numbers, one of which is one. -/

namespace Scientific

theorem tenPower_pos (k : ℤ) : 0 < (tenPower k).1 ∧ 0 < (tenPower k).2 := by
  cases k with
  | ofNat k => exact ⟨Nat.pow_pos (by decide), Nat.one_pos⟩
  | negSucc k => exact ⟨Nat.one_pos, Nat.pow_pos (by decide)⟩

theorem tenPower_ratio (k : ℤ) : ((tenPower k).1 : ℚ) / (tenPower k).2 = 10 ^ k := by
  cases k with
  | ofNat k => simp [tenPower, powerOfTen]
  | negSucc k => simp [tenPower, powerOfTen, zpow_negSucc]

/-- Zeros at the end are counted in the exponent. -/
theorem dropZeros_mul {c : ℕ} (hc : c % 10 ≠ 0) {j steps : ℕ} (hj : j ≤ steps) (k : ℤ) :
    dropZeros steps ⟨c * 10 ^ j, k⟩ = ⟨c, k + j⟩ := by
  induction j generalizing steps k with
  | zero =>
    cases steps with
    | zero => simp [dropZeros]
    | succ steps => simp [dropZeros, hc]
  | succ j ih =>
    obtain ⟨steps, rfl⟩ : ∃ n, steps = n + 1 := ⟨steps - 1, by omega⟩
    have hne : c * 10 ^ (j + 1) ≠ 0 := by
      have : c ≠ 0 := fun h ↦ hc (by rw [h])
      positivity
    have hten : c * 10 ^ (j + 1) = c * 10 ^ j * 10 := by rw [pow_succ, mul_assoc]
    have hzero : c * 10 ^ (j + 1) % 10 = 0 ∧ c * 10 ^ (j + 1) ≠ 0 :=
      ⟨by rw [hten, Nat.mul_mod_left], hne⟩
    rw [dropZeros]
    simp only [if_pos hzero]
    rw [hten, Nat.mul_div_cancel _ (by decide), ih (by omega)]
    congr 1
    push_cast
    ring

end Scientific

namespace Double

/-! ## The interval around a double

The interval has its ends halfway to the neighbours of the double, and they belong to it if the
significand is even.  Its numbers are kept over a common denominator. -/

namespace Span

/-- Whether a number lies in the interval. -/
def Holds (s : Span) (v : ℚ) : Prop :=
  if s.closed then s.low / s.den ≤ v ∧ v ≤ s.high / s.den
  else s.low / s.den < v ∧ v < s.high / s.den

variable {s : Span}

/-- Whether a decimal is in the interval is decided in whole numbers. -/
theorem contains_iff (hden : 0 < s.den) (a : ℕ) (k : ℤ) :
    s.contains ⟨a, k⟩ = true ↔ s.Holds (a * 10 ^ k) := by
  have hpos := (Scientific.tenPower_pos k).2
  rw [contains, Holds, ← Scientific.tenPower_ratio, ← mul_div_assoc]
  generalize Scientific.tenPower k = t at hpos
  have hden' : (0 : ℚ) < s.den := by exact_mod_cast hden
  have hpos' : (0 : ℚ) < t.2 := by exact_mod_cast hpos
  rw [div_le_div_iff₀ hden' hpos', div_le_div_iff₀ hpos' hden', div_lt_div_iff₀ hden' hpos',
    div_lt_div_iff₀ hpos' hden']
  obtain ⟨n, d⟩ := t
  simp only
  split
  · rw [Bool.and_eq_true, decide_eq_true_iff, decide_eq_true_iff]
    exact_mod_cast Iff.rfl
  · rw [Bool.and_eq_true, decide_eq_true_iff, decide_eq_true_iff]
    exact_mod_cast Iff.rfl

/-- Where a double stands among the multiples of a power of ten. -/
theorem floor_bounds (hden : 0 < s.den) (k : ℤ) :
    let t := Scientific.tenPower k
    let f := s.value * t.2 / (s.den * t.1)
    f * 10 ^ k ≤ (s.value / s.den : ℚ) ∧ (s.value / s.den : ℚ) < (f + 1) * 10 ^ k := by
  intro t f
  obtain ⟨hn, hd⟩ := Scientific.tenPower_pos k
  have hpos : 0 < s.den * t.1 := Nat.mul_pos hden hn
  have hden' : (0 : ℚ) < s.den := by exact_mod_cast hden
  have hd' : (0 : ℚ) < t.2 := by exact_mod_cast hd
  have hle : f * (s.den * t.1) ≤ s.value * t.2 := Nat.div_mul_le_self ..
  have hlt : s.value * t.2 < (f + 1) * (s.den * t.1) :=
    Nat.lt_mul_of_div_lt (Nat.lt_succ_self f) hpos
  rw [← Scientific.tenPower_ratio, ← mul_div_assoc, ← mul_div_assoc, div_le_div_iff₀ hd' hden',
    div_lt_div_iff₀ hden' hd']
  constructor
  · calc (f * t.1 * s.den : ℚ) = f * (s.den * t.1) := by ring
      _ ≤ s.value * t.2 := by exact_mod_cast hle
  · calc (s.value * t.2 : ℚ) < (f + 1) * (s.den * t.1) := by exact_mod_cast hlt
      _ = (f + 1) * t.1 * s.den := by ring

/-- Where no decimal of a place is in the interval nothing is taken. -/
theorem choose?_eq_none (hden : 0 < s.den) {k : ℤ} (h : ∀ a : ℕ, a ≠ 0 → ¬s.Holds (a * 10 ^ k)) :
    s.choose? k = none := by
  have hnot {a : ℕ} (ha : a ≠ 0) : s.contains ⟨a, k⟩ = false :=
    Bool.eq_false_iff.2 fun hc ↦ h a ha ((contains_iff hden _ _).1 hc)
  have hlower (f : ℕ) : (s.contains ⟨f, k⟩ && f != 0) = false := by
    by_cases hf : f = 0
    · simp [hf]
    · rw [hnot hf, Bool.false_and]
  rw [choose?]
  simp only [hlower, hnot (Nat.succ_ne_zero _)]

/-- The only decimal of the interval at a place is taken, if it is one of the two neighbours. -/
theorem choose?_eq_some (hden : 0 < s.den) {m : ℕ} {k : ℤ} (hm : m ≠ 0)
    (hholds : s.Holds (m * 10 ^ k)) (honly : ∀ a : ℕ, s.Holds (a * 10 ^ k) → a = m)
    (hlow : (s.value / s.den : ℚ) < (m + 1) * 10 ^ k)
    (hhigh : m * 10 ^ k < (s.value / s.den : ℚ) + 10 ^ k) : s.choose? k = some ⟨m, k⟩ := by
  have hin : s.contains ⟨m, k⟩ = true := (contains_iff hden _ _).2 hholds
  have hout {a : ℕ} (ha : a ≠ m) : s.contains ⟨a, k⟩ = false :=
    Bool.eq_false_iff.2 fun hc ↦ ha (honly a ((contains_iff hden _ _).1 hc))
  obtain ⟨hfloor, hceil⟩ := floor_bounds hden k
  rw [choose?]
  simp only at hfloor hceil ⊢
  generalize s.value * (Scientific.tenPower k).2 / (s.den * (Scientific.tenPower k).1) = f
    at hfloor hceil ⊢
  have hplace : (0 : ℚ) < 10 ^ k := by positivity
  have hle : f < m + 1 := by
    have : (f : ℚ) < m + 1 := lt_of_mul_lt_mul_right (hfloor.trans_lt hlow) hplace.le
    exact_mod_cast this
  have hge : m < f + 2 := by
    have : (m : ℚ) < f + 2 := by
      refine lt_of_mul_lt_mul_right ?_ hplace.le
      linarith
    exact_mod_cast this
  obtain rfl | rfl : m = f ∨ m = f + 1 := by omega
  · have hm' : (m != 0) = true := bne_iff_ne.2 hm
    simp only [hin, hm', hout (Nat.succ_ne_self m), Bool.and_self]
  · simp [hin, hout (Nat.ne_of_lt (Nat.lt_succ_self f))]

/-- Going down place by place, the search stops at the first one where something is taken. -/
theorem search_eq {leading p : ℤ} {y : Scientific} (hplace : s.choose? p = some y)
    (habove : ∀ k ≤ leading, p < k → s.choose? k = none) {steps digits : ℕ} (hdigits : 1 ≤ digits)
    (hle : p ≤ leading - digits + 1) (hsteps : leading - digits + 1 ≤ p + steps) :
    s.search leading steps digits = y := by
  induction steps generalizing digits with
  | zero =>
    have hp : leading - digits + 1 = p := by omega
    rw [search, hp, hplace]
    rfl
  | succ steps ih =>
    rw [search]
    rcases hle.eq_or_lt with hp | hp
    · rw [← hp, hplace]
    · rw [habove _ (by omega) hp]
      exact ih (Nat.le_succ_of_le hdigits) (by push_cast; omega) (by push_cast at hsteps ⊢; omega)

/-- The place of the first digit is found, if there are enough steps. -/
theorem leadingPlace_bounds (hden : 0 < s.den) (steps : ℕ) {k : ℤ}
    (hlow : (10 : ℚ) ^ k ≤ s.value / s.den) (hhigh : (s.value / s.den : ℚ) < 10 ^ (k + steps + 1)) :
    (10 : ℚ) ^ s.leadingPlace steps k ≤ s.value / s.den ∧
      (s.value / s.den : ℚ) < 10 ^ (s.leadingPlace steps k + 1) := by
  induction steps generalizing k with
  | zero => exact ⟨hlow, by simpa [leadingPlace] using hhigh⟩
  | succ steps ih =>
    have hnext : (Scientific.tenPower (k + 1)).1 * s.den ≤
        s.value * (Scientific.tenPower (k + 1)).2 ↔ (10 : ℚ) ^ (k + 1) ≤ s.value / s.den := by
      have hd : (0 : ℚ) < (Scientific.tenPower (k + 1)).2 := by
        exact_mod_cast (Scientific.tenPower_pos (k + 1)).2
      have hden' : (0 : ℚ) < s.den := by exact_mod_cast hden
      rw [← Scientific.tenPower_ratio, div_le_div_iff₀ hd hden']
      exact_mod_cast Iff.rfl
    rw [leadingPlace]
    simp only [hnext]
    split
    · next h =>
      refine ih h ?_
      push_cast at hhigh
      rwa [add_right_comm k 1, add_assoc k]
    · next h => exact ⟨hlow, not_le.1 h⟩

end Span

variable {x : Double} {r : ℚ}

/-- How far the lower end of the interval is away from its middle, in quarters of the last bit. -/
def gapBelow (x : Double) : ℕ :=
  if 2 * x.significand = bound ∧ minExponent < x.exponent then 1 else 2

/-- The interval in units of a quarter of the last bit. -/
theorem exists_span (x : Double) :
    ∃ n d : ℕ, 0 < d ∧ (n / d : ℚ) = 2 ^ x.exponent / 4 ∧
      x.span = ⟨(4 * x.significand - x.gapBelow) * n, 4 * x.significand * n,
        (4 * x.significand + 2) * n, d, x.significand % 2 == 0⟩ := by
  have hunit : (2 : ℚ) ^ x.exponent / 4 = 2 ^ (x.exponent - 2) := by
    rw [zpow_sub₀ two_ne_zero]
    norm_num
  rw [hunit, span, gapBelow]
  cases x.exponent - 2 with
  | ofNat e => exact ⟨1 <<< e, 1, Nat.one_pos, by simp [Nat.one_shiftLeft], rfl⟩
  | negSucc e =>
    refine ⟨1, 1 <<< (e + 1), ?_, by simp [Nat.one_shiftLeft, zpow_negSucc], rfl⟩
    rw [Nat.one_shiftLeft]
    positivity

/-- The interval, its middle and its ends. -/
theorem span_bounds (hx : 0 < x.significand) :
    0 < x.span.den ∧ (x.span.value / x.span.den : ℚ) = x.value ∧
      (x.span.high / x.span.den : ℚ) = x.value + 2 ^ x.exponent / 2 ∧
      (x.span.low / x.span.den : ℚ) = x.value - x.gapBelow * (2 ^ x.exponent / 4) := by
  obtain ⟨n, d, hd, hnd, hspan⟩ := x.exists_span
  have hbelow : x.gapBelow ≤ 4 * x.significand := by
    rw [gapBelow]
    split <;> omega
  rw [hspan]
  refine ⟨hd, ?_, ?_, ?_⟩
  · push_cast
    rw [mul_div_assoc, hnd, value]
    ring
  · push_cast
    rw [mul_div_assoc, hnd, value]
    ring
  · push_cast [hbelow]
    rw [mul_div_assoc, hnd, value]
    ring

theorem Nearest.significand_pos (h : x.Nearest r) : 0 < x.significand :=
  (Nat.two_pow_pos 52).trans_le h.le_significand

/-- What is next to a double lies in its interval. -/
theorem Nearest.holds (h : x.Nearest r) : x.span.Holds r := by
  obtain ⟨-, -, hhigh, hlow⟩ := span_bounds h.significand_pos
  obtain ⟨-, hbelow, habove, hodd, hpower⟩ := h
  have hclosed : x.span.closed = (x.significand % 2 == 0) := rfl
  have hunit : (0 : ℚ) < 2 ^ x.exponent := by positivity
  rw [Span.Holds, hhigh, hlow, hclosed, gapBelow]
  by_cases heven : x.significand % 2 = 0
  · rw [if_pos (beq_iff_eq.2 heven)]
    refine ⟨?_, habove⟩
    split
    · next hb =>
      push_cast
      linarith [hpower hb.1]
    · push_cast
      linarith
  · have hne : ¬(2 * x.significand = bound ∧ minExponent < x.exponent) := by
      rw [bound]
      omega
    obtain ⟨hlt, hgt⟩ := hodd (by omega)
    rw [if_neg (by simpa using heven), if_neg hne]
    refine ⟨?_, hgt⟩
    push_cast
    linarith

/-- The interval reaches half of the last bit on either side. -/
theorem bounds_of_holds (hx : 0 < x.significand) (h : x.span.Holds r) :
    x.value ≤ r + 2 ^ x.exponent / 2 ∧ r ≤ x.value + 2 ^ x.exponent / 2 := by
  obtain ⟨-, -, hhigh, hlow⟩ := span_bounds hx
  have hunit : (0 : ℚ) < 2 ^ x.exponent := by positivity
  have hbelow : (x.gapBelow : ℚ) ≤ 2 := by
    rw [gapBelow]
    split <;> norm_num
  rw [Span.Holds, hhigh, hlow] at h
  have hends : x.value - x.gapBelow * (2 ^ x.exponent / 4) ≤ r ∧
      r ≤ x.value + 2 ^ x.exponent / 2 := by
    split at h
    · exact h
    · exact ⟨h.1.le, h.2.le⟩
  refine ⟨?_, hends.2⟩
  linarith [hends.1, mul_le_mul_of_nonneg_right hbelow hunit.le]

/-! ## Decimals of fifteen digits

Two decimals with the same last place are a unit of that place apart, or more.  The interval has no
room for both. -/

section Digits

variable {m : ℕ} {p : ℤ}

/-- The last bit of a double is worth less than the last of fifteen digits. -/
theorem Nearest.unit_lt (h : x.Nearest (m * 10 ^ p)) (hm : m < 10 ^ 15) :
    (2 : ℚ) ^ x.exponent < 10 ^ p := by
  have hunit : (0 : ℚ) < 2 ^ x.exponent := by positivity
  have hplace : (0 : ℚ) < 10 ^ p := by positivity
  have hm' : (m : ℚ) ≤ 10 ^ 15 := by exact_mod_cast hm.le
  have hnormal : (2 ^ 52 : ℚ) ≤ x.significand := by exact_mod_cast h.le_significand
  have hbelow := h.below
  rw [value] at hbelow
  by_contra hle
  linarith [mul_le_mul_of_nonneg_right hnormal hunit.le, mul_le_mul_of_nonneg_right hm' hplace.le]

/-- No other number with the same last place lies in the interval. -/
theorem Nearest.eq_of_holds (h : x.Nearest (m * 10 ^ p)) (hm : m < 10 ^ 15) {a : ℕ}
    (ha : x.span.Holds (a * 10 ^ p)) : a = m := by
  have hunit := h.unit_lt hm
  have hplace : (0 : ℚ) < 10 ^ p := by positivity
  obtain ⟨hbelow, habove⟩ := bounds_of_holds h.significand_pos ha
  have hlt : (a : ℚ) < m + 1 := by
    refine lt_of_mul_lt_mul_right ?_ hplace.le
    linarith [h.below]
  have hgt : (m : ℚ) < a + 1 := by
    refine lt_of_mul_lt_mul_right ?_ hplace.le
    linarith [h.above]
  have hlt' : a < m + 1 := by exact_mod_cast hlt
  have hgt' : m < a + 1 := by exact_mod_cast hgt
  omega

/-- Of the two neighbours at its last place, the decimal itself is taken. -/
theorem Nearest.choose?_place (h : x.Nearest (m * 10 ^ p)) (hm₀ : m ≠ 0) (hm : m < 10 ^ 15) :
    x.span.choose? p = some ⟨m, p⟩ := by
  obtain ⟨hden, hvalue, -⟩ := span_bounds h.significand_pos
  have hunit := h.unit_lt hm
  have hunit₀ : (0 : ℚ) < 2 ^ x.exponent := by positivity
  refine Span.choose?_eq_some hden hm₀ h.holds (fun a ha ↦ h.eq_of_holds hm ha) ?_ ?_
  · rw [hvalue]
    linarith [h.below]
  · rw [hvalue]
    linarith [h.above]

/-- Nothing that has fewer places is taken. -/
theorem Nearest.choose?_above (h : x.Nearest (m * 10 ^ p)) (hm : m < 10 ^ 15) (hten : m % 10 ≠ 0)
    {k : ℤ} (hk : p < k) : x.span.choose? k = none := by
  refine Span.choose?_eq_none (span_bounds h.significand_pos).1 fun a ha hholds ↦ hten ?_
  obtain ⟨j, rfl⟩ : ∃ j : ℕ, k = p + (j + 1 : ℕ) := ⟨(k - p - 1).toNat, by omega⟩
  have hfiner : (a : ℚ) * 10 ^ (p + (j + 1 : ℕ)) = (a * 10 ^ (j + 1) : ℕ) * 10 ^ p := by
    rw [zpow_add₀ (by norm_num), zpow_natCast]
    push_cast
    ring
  rw [hfiner] at hholds
  rw [← h.eq_of_holds hm hholds, pow_succ, ← Nat.mul_assoc, Nat.mul_mod_left]

end Digits

/-! ## The first digit

The bits of a double give a power of ten that is below it and not far away. -/

theorem value_bounds (hx : 0 < x.significand) :
    (2 : ℚ) ^ ((x.significand.log2 : ℤ) + x.exponent) ≤ x.value ∧
      x.value < 2 ^ ((x.significand.log2 : ℤ) + x.exponent + 1) := by
  have hunit : (0 : ℚ) < 2 ^ x.exponent := by positivity
  have hle : (2 : ℚ) ^ x.significand.log2 ≤ x.significand := by
    exact_mod_cast Nat.log2_self_le hx.ne'
  have hlt : (x.significand : ℚ) < 2 ^ (x.significand.log2 + 1) := by
    exact_mod_cast Nat.lt_log2_self
  rw [value, add_right_comm, zpow_add₀ two_ne_zero, zpow_add₀ two_ne_zero]
  constructor
  · rw [zpow_natCast]
    exact mul_le_mul_of_nonneg_right hle hunit.le
  · exact_mod_cast mul_lt_mul_of_pos_right hlt hunit

/-- The guess is not too high. -/
theorem placeBound_le (hx : 0 < x.significand) : (10 : ℚ) ^ x.placeBound ≤ x.value := by
  refine le_trans ?_ (value_bounds hx).1
  rw [placeBound]
  generalize (x.significand.log2 : ℤ) + x.exponent = b
  split
  · next hb =>
    obtain ⟨n, rfl⟩ := Int.eq_ofNat_of_zero_le hb
    have hpow : 10 ^ (n * 3 / 10) ≤ 2 ^ n := by
      refine (Nat.pow_le_pow_iff_left (show 10 ≠ 0 by decide)).1 ?_
      calc (10 ^ (n * 3 / 10)) ^ 10 = 10 ^ (n * 3 / 10 * 10) := (pow_mul ..).symm
        _ ≤ 10 ^ (3 * n) := Nat.pow_le_pow_right (by decide) (by omega)
        _ = 1000 ^ n := pow_mul ..
        _ ≤ 1024 ^ n := Nat.pow_le_pow_left (by decide) n
        _ = (2 ^ n) ^ 10 := pow_right_comm 2 10 n
    exact_mod_cast hpow
  · next hb =>
    obtain ⟨n, hn⟩ : ∃ n : ℕ, b / 3 - 1 = -(n : ℤ) := ⟨(1 - b / 3).toNat, by omega⟩
    have hpow : (8 : ℚ) ^ n ≤ 10 ^ n := pow_le_pow_left₀ (by norm_num) (by norm_num) n
    calc (10 : ℚ) ^ (b / 3 - 1) = (10 ^ n)⁻¹ := by rw [hn, zpow_neg, zpow_natCast]
      _ ≤ (8 ^ n)⁻¹ := inv_anti₀ (by positivity) hpow
      _ = 2 ^ (-((3 * n : ℕ) : ℤ)) := by rw [zpow_neg, zpow_natCast, pow_mul]; norm_num
      _ ≤ 2 ^ b := zpow_le_zpow_right₀ one_le_two (by push_cast; omega)

/-- Where the first digit of a double stands, if it is within a moderate range. -/
theorem leading_bounds (hx : 0 < x.significand) (hlow : (10 : ℚ) ^ (-23 : ℤ) ≤ x.value)
    (hhigh : x.value < 10 ^ (20 : ℤ)) :
    (10 : ℚ) ^ x.span.leadingPlace 60 x.placeBound ≤ x.value ∧
      x.value < 10 ^ (x.span.leadingPlace 60 x.placeBound + 1) := by
  obtain ⟨hden, hvalue, -⟩ := span_bounds hx
  have hbound : -27 ≤ x.placeBound := by
    have hpow : (2 : ℚ) ^ (-77 : ℤ) < 2 ^ ((x.significand.log2 : ℤ) + x.exponent + 1) :=
      calc (2 : ℚ) ^ (-77 : ℤ) < 10 ^ (-23 : ℤ) := by norm_num
        _ ≤ x.value := hlow
        _ < _ := (value_bounds hx).2
    have := (zpow_lt_zpow_iff_right₀ one_lt_two).1 hpow
    rw [placeBound]
    split <;> omega
  rw [← hvalue]
  refine Span.leadingPlace_bounds hden 60 ?_ ?_
  · rw [hvalue]
    exact placeBound_le hx
  · rw [hvalue]
    exact hhigh.trans_le (zpow_le_zpow_right₀ (by norm_num) (by push_cast; omega))

/-- The first digit of a double is among those of the decimal next to it, or a place below them. -/
theorem Nearest.leadingPlace_bounds {c : ℕ} {p : ℤ} (h : x.Nearest (c * 10 ^ p)) (hc₀ : c ≠ 0)
    (hc : c < 10 ^ 15) (hp : -22 ≤ p) (hp' : p ≤ 0) :
    p - 1 ≤ x.span.leadingPlace 60 x.placeBound ∧
      x.span.leadingPlace 60 x.placeBound < p + 16 ∧
      x.value < 10 ^ (x.span.leadingPlace 60 x.placeBound + 1) := by
  have hc₁ : (1 : ℚ) ≤ c := by exact_mod_cast Nat.one_le_iff_ne_zero.2 hc₀
  have hc₂ : (c : ℚ) ≤ 10 ^ 15 := by exact_mod_cast hc.le
  have hunit := h.unit_lt hc
  have hplace : (0 : ℚ) < 10 ^ p := by positivity
  have hlow : 10 ^ p / 2 < x.value := by
    linarith [h.above, mul_le_mul_of_nonneg_right hc₁ hplace.le]
  have hhigh : x.value < (10 ^ 15 + 1) * 10 ^ p := by
    linarith [h.below, mul_le_mul_of_nonneg_right hc₂ hplace.le]
  have hshift (k : ℤ) : (10 : ℚ) ^ (p + k) = 10 ^ p * 10 ^ k := zpow_add₀ (by norm_num) p k
  have hdown : (10 : ℚ) ^ (p - 1) < x.value := by
    rw [sub_eq_add_neg, hshift]
    norm_num
    linarith
  have hup : x.value < 10 ^ (p + 16) := by
    rw [hshift]
    norm_num
    linarith
  obtain ⟨hleading, hleading'⟩ := leading_bounds h.significand_pos
    ((zpow_le_zpow_right₀ (by norm_num) (by omega)).trans hdown.le)
    (hup.trans_le (zpow_le_zpow_right₀ (by norm_num) (by omega)))
  have hl := (zpow_lt_zpow_iff_right₀ (by norm_num)).1 (hleading.trans_lt hup)
  have hl' := (zpow_lt_zpow_iff_right₀ (by norm_num)).1 (hdown.trans hleading')
  exact ⟨by omega, hl, hleading'⟩

/-- A double below a unit of some place is next to that unit, if to any multiple of it. -/
theorem Nearest.eq_one {c : ℕ} {p : ℤ} (h : x.Nearest (c * 10 ^ p)) (hc₀ : c ≠ 0)
    (hc : c < 10 ^ 15) (hlt : x.value < 10 ^ p) : c = 1 := by
  have hunit := h.unit_lt hc
  have hplace : (0 : ℚ) < 10 ^ p := by positivity
  have htwo : (c : ℚ) < 2 := by
    refine lt_of_mul_lt_mul_right ?_ hplace.le
    linarith [h.above]
  have : c < 2 := by exact_mod_cast htwo
  omega

/-- **A decimal of fifteen digits is what a double next to it is written as.**  The search starts at
the first digit of the double, tries a place more at a time and takes the decimal at its last place,
where the interval has nothing else.  The double may be just below a power of ten where the decimal
is that power.  Then its first digit is a place below the only one that the decimal has, and what is
taken is the decimal with a zero, which is dropped. -/
theorem Nearest.shortest_eq {c : ℕ} {p : ℤ} (h : x.Nearest (c * 10 ^ p)) (hc : c < 10 ^ 15)
    (hten : c % 10 ≠ 0) (hp : -22 ≤ p) (hp' : p ≤ 0) : x.shortest = ⟨c, p⟩ := by
  have hc₀ : c ≠ 0 := fun h ↦ hten (by rw [h])
  obtain ⟨hdown, hup, hlt⟩ := h.leadingPlace_bounds hc₀ hc hp hp'
  rw [shortest]
  generalize x.span.leadingPlace 60 x.placeBound = l at hdown hup hlt
  by_cases hpl : p ≤ l
  · rw [Span.search_eq (h.choose?_place hc₀ hc) (fun k _ hk ↦ h.choose?_above hc hten hk) le_rfl
      (by push_cast; omega) (by push_cast; omega)]
    simpa using Scientific.dropZeros_mul hten (Nat.zero_le 17) p
  · obtain rfl : l = p - 1 := by omega
    rw [sub_add_cancel] at hlt
    obtain rfl : c = 1 := h.eq_one hc₀ hc hlt
    have hzero : ((1 : ℕ) : ℚ) * 10 ^ p = (10 : ℕ) * 10 ^ (p - 1) := by
      rw [zpow_sub_one₀ (by norm_num)]
      norm_num
      ring
    rw [hzero] at h
    rw [Span.search_eq (h.choose?_place (by decide) (by decide)) (fun k hk hk' ↦ by omega) le_rfl
      (by push_cast; omega) (by push_cast; omega)]
    simpa using Scientific.dropZeros_mul (c := 1) (by decide) (show 1 ≤ 17 by decide) (p - 1)

/-- **A decimal fraction of fifteen digits is read as a double and written back.** -/
theorem exists_shortest {c s : ℕ} (hten : c % 10 ≠ 0) (hc : c < 10 ^ 15) (hs₀ : 0 < s)
    (hs : s ≤ 22) :
    ∃ x, ofScientific c (-s) = some x ∧ 0 < x.significand ∧ x.shortest = ⟨c, -s⟩ := by
  obtain ⟨s, rfl⟩ := Nat.exists_eq_succ_of_ne_zero hs₀.ne'
  have hc₀ : 0 < c := Nat.pos_of_ne_zero fun h ↦ hten (by rw [h])
  obtain ⟨x, hx, hnear⟩ := exists_ofScientific hc₀ (hc.trans (by decide)) hs
  have hpower : (c / 10 ^ (s + 1) : ℚ) = c * 10 ^ (-(s + 1 : ℕ) : ℤ) := by
    rw [zpow_neg, zpow_natCast, div_eq_mul_inv]
  rw [hpower] at hnear
  exact ⟨x, hx, hnear.significand_pos, hnear.shortest_eq hc hten (by omega) (by omega)⟩

end Double

end RequestCondition

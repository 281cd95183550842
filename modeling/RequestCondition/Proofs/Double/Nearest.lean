import Mathlib.Algebra.Order.Field.Power
import Mathlib.Algebra.Order.Field.Rat
import Mathlib.Data.Rat.Cast.Order
import Mathlib.Tactic.FieldSimp
import Mathlib.Tactic.Linarith
import Mathlib.Tactic.NormNum
import Mathlib.Tactic.Positivity
import Mathlib.Tactic.Ring
import RequestCondition.Double.Basic

/-!
# Rounding to the nearest double

All arithmetic of doubles is the rounding of a ratio of whole numbers.  `Nearest` says what the
double that comes out has to do with the ratio: it is off by half of its last bit at most.
`Double.exists_ofRatio` proves it of every ratio that is neither too small nor too large, along the
steps that are taken: the exponent leaves 53 bits before the point (`exponentOf_bounds`), the
significand is off by a half at most (`roundDiv_bounds`), and where it reaches 54 bits it is a power
of two (`nearest_of_carry`).

A number that has 53 bits itself is not changed by rounding (`Nearest.value_eq`).  That is why a
decimal fraction of not too many digits and places is read as the double nearest to it, though it is
rounded three times (`exists_ofScientific`).

Numbers that are too small, where doubles have fewer bits, and numbers that are too large, where
there are none, are left out by bounds on the ratio.  These are far from the two ends of the range,
so that they are easy to check for what is used in the end: whole numbers of 53 bits, the powers of
ten up to the 22nd, and quotients of the two.
-/

set_option autoImplicit false

namespace RequestCondition

/-- A ratio is rounded by a half at most, and by less if the result is odd. -/
theorem roundDiv_bounds (num : ℕ) {den : ℕ} (hden : 0 < den) :
    2 * num ≤ 2 * roundDiv num den * den + den ∧ 2 * roundDiv num den * den ≤ 2 * num + den ∧
      (roundDiv num den % 2 = 1 → 2 * num < 2 * roundDiv num den * den + den ∧
        2 * roundDiv num den * den < 2 * num + den) := by
  have hdiv := Nat.div_add_mod num den
  have hmod := Nat.mod_lt num hden
  have hsucc : 2 * (num / den + 1) * den = 2 * (den * (num / den)) + 2 * den := by ring
  have hself : 2 * (num / den) * den = 2 * (den * (num / den)) := by ring
  simp only [roundDiv]
  split
  · rw [hself]
    omega
  split
  · rw [hsucc]
    omega
  · rcases Nat.mod_two_eq_zero_or_one (num / den) with h | h
    · rw [h, Nat.add_zero, hself]
      omega
    · rw [h, hsucc]
      omega

namespace Double

variable {num den : ℕ} {x : Double} {r : ℚ}

/-- The number that a double stands for. -/
def value (x : Double) : ℚ := x.significand * 2 ^ x.exponent

theorem ratio_den_pos (x : Double) : 0 < x.ratio.2 := by
  rw [ratio]
  split
  · exact Nat.one_pos
  · rw [Nat.one_shiftLeft]
    positivity

theorem ratio_value (x : Double) : (x.ratio.1 : ℚ) / x.ratio.2 = x.value := by
  rw [ratio, value]
  split
  · next e he =>
    rw [he, Nat.shiftLeft_eq]
    simp
  · next e he =>
    rw [he, Nat.one_shiftLeft, zpow_negSucc]
    push_cast
    rw [div_eq_mul_inv]

theorem shift_den_pos (num : ℕ) (hden : 0 < den) (e : ℤ) : 0 < (shift num den e).2 := by
  cases e with
  | ofNat e =>
    rw [shift, Nat.shiftLeft_eq]
    positivity
  | negSucc e => exact hden

theorem shift_ratio (num den : ℕ) (e : ℤ) :
    ((shift num den e).1 : ℚ) / (shift num den e).2 = num / den / 2 ^ e := by
  cases e with
  | ofNat e =>
    rw [shift, Nat.shiftLeft_eq, Int.ofNat_eq_natCast, zpow_natCast]
    push_cast
    rw [div_div]
  | negSucc e =>
    rw [shift, Nat.shiftLeft_eq, zpow_negSucc]
    push_cast
    field_simp

/-- The bits of a ratio, to within one. -/
theorem log2_bounds (hnum : 0 < num) (hden : 0 < den) :
    (2 : ℚ) ^ ((num.log2 : ℤ) - den.log2 - 1) < num / den ∧
      (num / den : ℚ) < 2 ^ ((num.log2 : ℤ) - den.log2 + 1) := by
  have hnum₀ : (2 : ℚ) ^ (num.log2 : ℤ) ≤ num := by
    rw [zpow_natCast]
    exact_mod_cast Nat.log2_self_le hnum.ne'
  have hnum₁ : (num : ℚ) < 2 ^ ((num.log2 : ℤ) + 1) := by
    exact_mod_cast Nat.lt_log2_self
  have hden₀ : (2 : ℚ) ^ (den.log2 : ℤ) ≤ den := by
    rw [zpow_natCast]
    exact_mod_cast Nat.log2_self_le hden.ne'
  have hden₁ : (den : ℚ) < 2 ^ ((den.log2 : ℤ) + 1) := by
    exact_mod_cast Nat.lt_log2_self
  have hpos : (0 : ℚ) < den := by exact_mod_cast hden
  have hone {e : ℤ} : (0 : ℚ) < 2 ^ e := by positivity
  constructor
  · rw [lt_div_iff₀ hpos, ← sub_add_eq_sub_sub, zpow_sub₀ two_ne_zero, div_mul_eq_mul_div,
      div_lt_iff₀ hone]
    exact mul_lt_mul' hnum₀ hden₁ hpos.le (hone.trans_le hnum₀)
  · rw [div_lt_iff₀ hpos, ← add_sub_right_comm, zpow_sub₀ two_ne_zero, div_mul_eq_mul_div,
      lt_div_iff₀ hone]
    exact mul_lt_mul hnum₁ hden₀ hone hone.le

/-- Whether a quotient has 53 bits is decided without its remainder. -/
theorem lt_bound_iff (n : ℕ) (hden : 0 < den) : n / den < bound ↔ (n / den : ℚ) < 2 ^ 53 := by
  have hpos : (0 : ℚ) < den := by exact_mod_cast hden
  rw [Nat.div_lt_iff_lt_mul hden, div_lt_iff₀ hpos]
  norm_num [bound]
  exact_mod_cast Iff.rfl

/-- The exponent leaves a significand of 53 bits, unless the ratio is too small. -/
theorem exponentOf_bounds (hnum : 0 < num) (hden : 0 < den)
    (hlow : (2 : ℚ) ^ (-1000 : ℤ) ≤ num / den) :
    (2 : ℚ) ^ 52 ≤ num / den / 2 ^ exponentOf num den ∧
      (num / den / 2 ^ exponentOf num den : ℚ) < 2 ^ 53 := by
  obtain ⟨hr₀, hr₁⟩ := log2_bounds hnum hden
  have hlarge : -1000 < (num.log2 : ℤ) - den.log2 + 1 :=
    (zpow_lt_zpow_iff_right₀ one_lt_two).1 (hlow.trans_lt hr₁)
  have he : max ((num.log2 : ℤ) - den.log2 - 53) minExponent = num.log2 - den.log2 - 53 := by
    rw [max_eq_left]
    rw [minExponent]
    omega
  rw [exponentOf]
  simp only [he]
  generalize (num.log2 : ℤ) - den.log2 = a at hr₀ hr₁
  have hone {e : ℤ} : (0 : ℚ) < 2 ^ e := by positivity
  have hq₀ : (2 : ℚ) ^ 52 < num / den / 2 ^ (a - 53) := by
    have ha : ((52 : ℕ) : ℤ) + (a - 53) = a - 1 := by omega
    rwa [lt_div_iff₀ hone, ← zpow_natCast, ← zpow_add₀ two_ne_zero, ha]
  have hq₁ : (num / den / 2 ^ (a - 53) : ℚ) < 2 ^ 54 := by
    have ha : ((54 : ℕ) : ℤ) + (a - 53) = a + 1 := by omega
    rwa [div_lt_iff₀ hone, ← zpow_natCast, ← zpow_add₀ two_ne_zero, ha]
  have hshift := shift_ratio num den (a - 53)
  have hpos := shift_den_pos num hden (a - 53)
  generalize shift num den (a - 53) = s at hshift hpos
  obtain ⟨n, d⟩ := s
  simp only [lt_bound_iff n hpos, hshift]
  split
  · next h => exact ⟨hq₀.le, h⟩
  · next h =>
    rw [zpow_add_one₀ two_ne_zero, ← div_div]
    constructor <;> linarith

/-! ## The nearest double -/

/-- `x` is a double of 53 bits next to the number `r`: it is off by half of its last bit at most,
and by less if its significand is odd; below a power of two, by a quarter at most. -/
structure Nearest (x : Double) (r : ℚ) : Prop where
  normal : bound ≤ 2 * x.significand
  below : x.value ≤ r + 2 ^ x.exponent / 2
  above : r ≤ x.value + 2 ^ x.exponent / 2
  odd : x.significand % 2 = 1 → x.value < r + 2 ^ x.exponent / 2 ∧ r < x.value + 2 ^ x.exponent / 2
  power : 2 * x.significand = bound → x.value ≤ r + 2 ^ x.exponent / 4

/-- A quotient is rounded by a half at most, said of fractions. -/
theorem roundDiv_rat (num : ℕ) (hden : 0 < den) :
    ((roundDiv num den : ℕ) : ℚ) ≤ num / den + 1 / 2 ∧ (num / den : ℚ) ≤ roundDiv num den + 1 / 2 ∧
      (roundDiv num den % 2 = 1 → ((roundDiv num den : ℕ) : ℚ) < num / den + 1 / 2 ∧
        (num / den : ℚ) < roundDiv num den + 1 / 2) := by
  have hpos : (0 : ℚ) < den := by exact_mod_cast hden
  obtain ⟨hle, hge, hodd⟩ := roundDiv_bounds num hden
  generalize roundDiv num den = q at hle hge hodd
  have hle' : (2 * num : ℚ) ≤ 2 * q * den + den := by exact_mod_cast hle
  have hge' : (2 * q * den : ℚ) ≤ 2 * num + den := by exact_mod_cast hge
  refine ⟨?_, ?_, fun hq ↦ ?_⟩
  · rw [div_add' _ _ _ hpos.ne', le_div_iff₀ hpos]
    linarith
  · rw [div_le_iff₀ hpos]
    linarith
  · obtain ⟨hlt, hgt⟩ := hodd hq
    have hlt' : (2 * num : ℚ) < 2 * q * den + den := by exact_mod_cast hlt
    have hgt' : (2 * q * den : ℚ) < 2 * num + den := by exact_mod_cast hgt
    rw [div_add' _ _ _ hpos.ne', lt_div_iff₀ hpos, div_lt_iff₀ hpos]
    constructor <;> linarith

/-- A double of 53 bits has the first of them. -/
theorem Nearest.le_significand (h : x.Nearest r) : 2 ^ 52 ≤ x.significand := by
  have := h.normal
  rw [bound] at this
  omega

/-- A quotient that is rounded to 53 bits. -/
theorem nearest_of_lt {q : ℕ} {e : ℤ} (hq : q < bound) (he : e ≤ 971)
    (hlow : (2 : ℚ) ^ 52 ≤ r / 2 ^ e) (hle : (q : ℚ) ≤ r / 2 ^ e + 1 / 2)
    (hge : r / 2 ^ e ≤ q + 1 / 2)
    (hodd : q % 2 = 1 → (q : ℚ) < r / 2 ^ e + 1 / 2 ∧ r / 2 ^ e < q + 1 / 2) :
    (⟨q, e, hq, he⟩ : Double).Nearest r := by
  have hone : (0 : ℚ) < 2 ^ e := by positivity
  have hr : r = r / 2 ^ e * 2 ^ e := (div_mul_cancel₀ _ hone.ne').symm
  generalize r / 2 ^ e = t at hr hlow hle hge hodd
  have hq₀ : 2 ^ 52 ≤ q := by
    have : (2 ^ 52 : ℚ) < q + 1 := by linarith
    exact Nat.lt_succ_iff.1 (by exact_mod_cast this)
  subst hr
  refine ⟨?_, ?_, ?_, fun h ↦ ?_, fun h ↦ ?_⟩
  · show bound ≤ 2 * q
    rw [bound]
    omega
  · show (q : ℚ) * 2 ^ e ≤ _
    linarith [mul_le_mul_of_nonneg_right hle hone.le]
  · show _ ≤ (q : ℚ) * 2 ^ e + _
    linarith [mul_le_mul_of_nonneg_right hge hone.le]
  · obtain ⟨hlt, hgt⟩ := hodd h
    constructor
    · show (q : ℚ) * 2 ^ e < _
      linarith [mul_lt_mul_of_pos_right hlt hone]
    · show _ < (q : ℚ) * 2 ^ e + _
      linarith [mul_lt_mul_of_pos_right hgt hone]
  · have hq' : (q : ℚ) = 2 ^ 52 := by
      have : q = 2 ^ 52 := by
        have h : 2 * q = bound := h
        rw [bound] at h
        omega
      exact_mod_cast this
    show (q : ℚ) * 2 ^ e ≤ _ + _
    rw [hq']
    linarith [mul_le_mul_of_nonneg_right hlow hone.le]

/-- A quotient that is rounded up to 54 bits is a power of two, and half of it has 53. -/
theorem nearest_of_carry {e : ℤ} (he : e + 1 ≤ 971) (hle : (2 : ℚ) ^ 53 ≤ r / 2 ^ e + 1 / 2)
    (hlt : r / 2 ^ e < 2 ^ 53) :
    (⟨2 ^ 52, e + 1, by decide, he⟩ : Double).Nearest r := by
  have hone : (0 : ℚ) < 2 ^ e := by positivity
  have hr : r = r / 2 ^ e * 2 ^ e := (div_mul_cancel₀ _ hone.ne').symm
  generalize r / 2 ^ e = t at hr hle hlt
  subst hr
  have hvalue : (⟨2 ^ 52, e + 1, by decide, he⟩ : Double).value = 2 ^ 53 * 2 ^ e := by
    rw [value, zpow_add_one₀ two_ne_zero]
    push_cast
    ring
  have hhalf : (2 : ℚ) ^ (e + 1) = 2 * 2 ^ e := by
    rw [zpow_add_one₀ two_ne_zero]
    ring
  refine ⟨?_, ?_, ?_, fun h ↦ ?_, fun h ↦ ?_⟩
  · show bound ≤ 2 * 2 ^ 52
    decide
  · rw [hvalue, hhalf]
    linarith [mul_le_mul_of_nonneg_right hle hone.le]
  · rw [hvalue, hhalf]
    linarith [mul_le_mul_of_nonneg_right hlt.le hone.le]
  · exact absurd h (by norm_num)
  · rw [hvalue, hhalf]
    linarith [mul_le_mul_of_nonneg_right hle hone.le]

/-- **Rounding a ratio leads to a double next to it**, unless the ratio is too small or too large.
-/
theorem exists_ofRatio (hnum : 0 < num) (hden : 0 < den)
    (hlow : (2 : ℚ) ^ (-1000 : ℤ) ≤ num / den) (hhigh : (num / den : ℚ) < 2 ^ (1000 : ℤ)) :
    ∃ x, ofRatio num den = some x ∧ x.Nearest (num / den) := by
  obtain ⟨hq₀, hq₁⟩ := exponentOf_bounds hnum hden hlow
  have hshift := shift_ratio num den (exponentOf num den)
  have hpos := shift_den_pos num hden (exponentOf num den)
  rw [ofRatio]
  generalize exponentOf num den = e at hq₀ hq₁ hshift hpos
  have he : e ≤ 970 := by
    have hone : (0 : ℚ) < 2 ^ e := by positivity
    rw [le_div_iff₀ hone, ← zpow_natCast, ← zpow_add₀ two_ne_zero] at hq₀
    have := (zpow_lt_zpow_iff_right₀ one_lt_two).1 (hq₀.trans_lt hhigh)
    omega
  simp only
  generalize shift num den e = s at hshift hpos
  obtain ⟨n, d⟩ := s
  obtain ⟨hle, hge, hodd⟩ := roundDiv_rat n hpos
  simp only [hshift] at hle hge hodd ⊢
  generalize roundDiv n d = q at hle hge hodd
  by_cases hq : q < bound
  · simp only [if_pos hq, dif_pos (show q < bound ∧ e ≤ 971 from ⟨hq, by omega⟩)]
    exact ⟨_, rfl, nearest_of_lt hq (by omega) hq₀ hle hge hodd⟩
  · have hq' : q = 2 ^ 53 := by
      have : (q : ℚ) < 2 ^ 53 + 1 := by linarith
      have : q < 2 ^ 53 + 1 := by exact_mod_cast this
      rw [bound] at hq
      omega
    subst hq'
    have hcarry : 2 ^ 53 / 2 < bound ∧ e + 1 ≤ 971 := ⟨by decide, by omega⟩
    simp only [if_neg hq, dif_pos hcarry]
    exact ⟨_, rfl, nearest_of_carry (by omega) (by exact_mod_cast hle) hq₁⟩

/-! ## Exact numbers

The three numbers that are rounded in the reading of a decimal fraction are its digits, the power of
ten below them, and the quotient.  The first two do not change, so only the quotient is rounded. -/

/-- A number that has 53 bits is the double next to it. -/
theorem Nearest.value_eq {q : ℕ} {k : ℤ} (h : x.Nearest r) (hq : q < bound) (hr : r = q * 2 ^ k) :
    x.value = r := by
  have hnormal := h.le_significand
  obtain ⟨-, hbelow, habove, -, hpower⟩ := h
  rw [value] at hbelow habove hpower ⊢
  generalize x.significand = m at hnormal hbelow habove hpower ⊢
  generalize x.exponent = e at hbelow habove hpower ⊢
  have hone : (0 : ℚ) < 2 ^ e := by positivity
  have he : e ≤ k := by
    by_contra hlt
    have hlow : (2 ^ 52 - 1 / 4 : ℚ) * 2 ^ e ≤ r := by
      rcases hnormal.eq_or_lt with hm | hm
      · subst hm
        have := hpower rfl
        push_cast at this
        linarith
      · have hm' : (2 ^ 52 + 1 : ℚ) ≤ m := by exact_mod_cast hm
        linarith [mul_le_mul_of_nonneg_right hm' hone.le]
    have hq' : (q : ℚ) ≤ 2 ^ 53 - 1 := by
      have : (q : ℚ) + 1 ≤ 2 ^ 53 := by exact_mod_cast hq
      linarith
    have hk : (2 : ℚ) * 2 ^ k ≤ 2 ^ e := by
      rw [← zpow_one_add₀ two_ne_zero]
      exact zpow_le_zpow_right₀ one_le_two (by omega)
    have hk₀ : (0 : ℚ) < 2 ^ k := by positivity
    rw [hr] at hlow
    linarith [mul_le_mul_of_nonneg_right hq' hk₀.le]
  obtain ⟨j, rfl⟩ := Int.exists_add_of_le he
  have hr' : r = (q * 2 ^ j : ℕ) * (2 : ℚ) ^ e := by
    rw [hr, zpow_add₀ two_ne_zero, zpow_natCast]
    push_cast
    ring
  rw [hr'] at hbelow habove ⊢
  generalize q * 2 ^ j = n at hbelow habove
  have hle : (m : ℚ) < n + 1 := by
    refine lt_of_mul_lt_mul_right ?_ hone.le
    linarith
  have hge : (n : ℚ) < m + 1 := by
    refine lt_of_mul_lt_mul_right ?_ hone.le
    linarith
  have hle' : m < n + 1 := by exact_mod_cast hle
  have hge' : n < m + 1 := by exact_mod_cast hge
  rw [show m = n by omega]

/-- A whole number of 53 bits, zeros behind them or not, is a double. -/
theorem exists_ofNat {q k : ℕ} (hq₀ : 0 < q) (hq : q < bound) (hk : k ≤ 900) :
    ∃ x, ofNat (q * 2 ^ k) = some x ∧ x.value = q * 2 ^ k := by
  have hone : (1 : ℚ) ≤ (q * 2 ^ k : ℕ) := by exact_mod_cast Nat.mul_pos hq₀ (Nat.two_pow_pos k)
  have hlow : (2 : ℚ) ^ (-1000 : ℤ) ≤ (q * 2 ^ k : ℕ) / (1 : ℕ) := by
    rw [Nat.cast_one, div_one]
    exact (zpow_le_one_of_nonpos₀ one_le_two (by decide)).trans hone
  have hhigh : ((q * 2 ^ k : ℕ) : ℚ) / (1 : ℕ) < 2 ^ (1000 : ℤ) := by
    have hlt : q * 2 ^ k < 2 ^ (53 + k) := by
      rw [pow_add]
      exact Nat.mul_lt_mul_of_pos_right hq (Nat.two_pow_pos k)
    have hlt' : ((q * 2 ^ k : ℕ) : ℚ) < 2 ^ ((53 + k : ℕ) : ℤ) := by
      rw [zpow_natCast]
      exact_mod_cast hlt
    rw [Nat.cast_one, div_one]
    exact hlt'.trans_le (zpow_le_zpow_right₀ one_le_two (by omega))
  obtain ⟨x, hx, hnear⟩ :=
    exists_ofRatio (Nat.mul_pos hq₀ (Nat.two_pow_pos k)) Nat.one_pos hlow hhigh
  refine ⟨x, hx, ?_⟩
  have hr : ((q * 2 ^ k : ℕ) : ℚ) / (1 : ℕ) = q * 2 ^ (k : ℤ) := by
    push_cast
    rw [div_one, zpow_natCast]
  rw [hnear.value_eq hq hr, hr, zpow_natCast]

/-- The powers of ten up to the 22nd have 53 bits but for the zeros at their end. -/
theorem exists_ofNat_powerOfTen {s : ℕ} (hs : s ≤ 22) :
    ∃ x, ofNat (powerOfTen s) = some x ∧ x.value = 10 ^ s := by
  have hfive : 5 ^ s < bound :=
    (Nat.pow_le_pow_right (by decide) hs).trans_lt (by decide)
  obtain ⟨x, hx, hvalue⟩ := exists_ofNat (k := s) (Nat.pow_pos (by decide)) hfive (by omega)
  have hten : 5 ^ s * 2 ^ s = powerOfTen s := by
    rw [← mul_pow]
    rfl
  refine ⟨x, hten ▸ hx, ?_⟩
  rw [hvalue]
  push_cast
  rw [← mul_pow]
  norm_num

theorem ratio_num_pos (hx : 0 < x.value) : 0 < x.ratio.1 := by
  have hpos : (0 : ℚ) < x.ratio.2 := by exact_mod_cast x.ratio_den_pos
  rw [← ratio_value, lt_div_iff₀ hpos, zero_mul] at hx
  exact_mod_cast hx

/-- **A decimal fraction is read as a double next to it**, if its digits and its denominator are
doubles themselves.  These two are not changed when they are rounded, so what is rounded last is the
fraction itself, and not the quotient of two numbers near by. -/
theorem exists_ofScientific {c s : ℕ} (hc₀ : 0 < c) (hc : c < bound) (hs : s + 1 ≤ 22) :
    ∃ x, ofScientific c (.negSucc s) = some x ∧ x.Nearest (c / 10 ^ (s + 1)) := by
  obtain ⟨a, ha, hav⟩ := exists_ofNat (k := 0) hc₀ hc (by decide)
  obtain ⟨b, hb, hbv⟩ := exists_ofNat_powerOfTen hs
  rw [pow_zero, Nat.mul_one] at ha
  rw [pow_zero, mul_one] at hav
  have hc₁ : (1 : ℚ) ≤ c := by exact_mod_cast hc₀
  have hten : (0 : ℚ) < 10 ^ (s + 1) := by positivity
  have hvalue : ((a.ratio.1 * b.ratio.2 : ℕ) : ℚ) / (a.ratio.2 * b.ratio.1 : ℕ) =
      c / 10 ^ (s + 1) := by
    rw [← hav, ← hbv, ← a.ratio_value, ← b.ratio_value, div_div_div_eq]
    push_cast
    rfl
  have hlow : (2 : ℚ) ^ (-1000 : ℤ) ≤ c / 10 ^ (s + 1) := by
    have hone : (10 : ℚ) ^ (s + 1) ≤ 10 ^ 22 := pow_le_pow_right₀ (by norm_num) hs
    calc (2 : ℚ) ^ (-1000 : ℤ) ≤ 2 ^ (-88 : ℤ) := zpow_le_zpow_right₀ one_le_two (by decide)
      _ ≤ 1 / 10 ^ 22 := by norm_num
      _ ≤ c / 10 ^ (s + 1) := div_le_div₀ (by linarith) hc₁ hten hone
  have hhigh : (c / 10 ^ (s + 1) : ℚ) < 2 ^ (1000 : ℤ) := by
    have hone : (1 : ℚ) ≤ 10 ^ (s + 1) := one_le_pow₀ (by norm_num)
    have hc' : (c : ℚ) < 2 ^ (53 : ℤ) := by exact_mod_cast hc
    calc (c / 10 ^ (s + 1) : ℚ) ≤ c := div_le_self (by linarith) hone
      _ < 2 ^ (53 : ℤ) := hc'
      _ ≤ 2 ^ (1000 : ℤ) := zpow_le_zpow_right₀ one_le_two (by decide)
  have hnum : 0 < a.ratio.1 * b.ratio.2 :=
    Nat.mul_pos (ratio_num_pos (hav ▸ by linarith)) b.ratio_den_pos
  have hden : 0 < a.ratio.2 * b.ratio.1 :=
    Nat.mul_pos a.ratio_den_pos (ratio_num_pos (hbv ▸ hten))
  obtain ⟨x, hx, hnear⟩ :=
    exists_ofRatio hnum hden (hvalue.symm ▸ hlow) (hvalue.symm ▸ hhigh)
  refine ⟨x, ?_, hvalue ▸ hnear⟩
  have hmax : s + 1 ≤ maxTen := hs.trans (by decide)
  simp only [ofScientific, ha, hb, hmax, if_true, Option.bind_eq_bind, Option.bind_some]
  exact hx

end Double

end RequestCondition

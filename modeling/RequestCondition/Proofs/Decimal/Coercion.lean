import RequestCondition.Evaluator.Basic
import RequestCondition.Proofs.Decimal.Numeral

/-!
# Texts that count as numbers

A text counts as a number in a numeric comparison.  For the text of a plain numeral, blanks around
it or not, that number is the numeral rounded, with its sign: exact where it can be, and the largest
or the smallest decimal where the numeral is beyond them.  So numeric comparison orders numerals of
any length as the numbers they stand for, if it tells them apart (`toNumber_of_numerals`).

A numeral that cannot be read is told from a text that is none by the length of its whole part.
Reading fails only from the bound on or right below it, where a number has more than 28 digits
(`isOversized_chars`), so no numeral counts as zero by mistake.

The three clauses of the theorem about order, exactness and the two ends are three properties of
rounding.  They are known of numbers that are not negative, and the first section takes them past
the signs: the sign of a numeral is put in front of the number again after that has been rounded.
-/

set_option autoImplicit false

namespace RequestCondition

open Decimal

/-! ## Signs

A sign turns the order of two numbers that have it around, and rounding does not mind, since what is
rounded is the number behind the sign. -/

/-- Rounding behind the signs keeps the order. -/
theorem Decimal.Rounds.apply_mono {a b : Sign} {v w r s : ℚ} (hr : Rounds v r) (hs : Rounds w s)
    (hv : 0 ≤ v) (hw : 0 ≤ w) (h : a.apply v ≤ b.apply w) : a.apply r ≤ b.apply s := by
  have hr0 := hr.nonneg hv
  have hs0 := hs.nonneg hw
  rw [Sign.apply, Sign.apply] at h ⊢
  split_ifs at h ⊢
  · exact neg_le_neg (hs.mono hr hw (neg_le_neg_iff.1 h))
  · linarith
  · -- between a number and a negative one there is room for zero only
    have hv0 : v = 0 := by linarith
    have hw0 : w = 0 := by linarith
    have hrz := hr.eq_of_exact (c := 0) (k := 0) (by decide) (by decide) (by simpa using hv0)
    have hsz := hs.eq_of_exact (c := 0) (k := 0) (by decide) (by decide) (by simpa using hw0)
    linarith
  · exact hr.mono hs hv h

namespace Reading

/-! ## Numerals that cannot be read

Where reading fails the length of the text decides.  The digits before the point are counted,
without the zeros in front of them. -/

theorem unsigned_eq (n : Numeral) :
    (if n.chars.head? = some '-' ∨ n.chars.head? = some '+' then n.chars.tail else n.chars) =
      n.unsigned := by
  rw [Numeral.chars]
  cases n.sign with
  | absent =>
    obtain ⟨d, cs, h⟩ := n.exists_unsigned_eq
    have hminus := digitChar_ne d (c := '-') rfl
    have hplus := digitChar_ne d (c := '+') rfl
    simp [Sign.chars, h, hminus, hplus]
  | plus => rfl
  | minus => rfl

theorem head?_eq_minus_iff (n : Numeral) : n.chars.head? = some '-' ↔ n.sign = .minus := by
  rw [Numeral.chars]
  cases n.sign with
  | absent =>
    obtain ⟨d, cs, h⟩ := n.exists_unsigned_eq
    simp [Sign.chars, h, digitChar_ne d (c := '-') rfl]
  | plus => simp [Sign.chars]
  | minus => simp [Sign.chars]

/-- The point, if there is one, is between the two rows of digits. -/
theorem takeWhile_unsigned (n : Numeral) :
    n.unsigned.takeWhile (· != '.') = digitChars n.whole ∧
      (n.unsigned.dropWhile (· != '.')).tail = digitChars n.fraction := by
  have hwhole : ∀ c ∈ digitChars n.whole, (c != '.') = true := by
    intro c hc
    exact bne_iff_ne.2 fun hp ↦ not_mem_digitChars n.whole rfl (hp ▸ hc)
  rw [Numeral.unsigned, List.takeWhile_append_of_pos hwhole, List.dropWhile_append_of_pos hwhole]
  split
  · next hf => simp [hf]
  · simp

/-- Where a numeral is too large to be read, its whole part has more than 28 significant digits. -/
theorem isOversized_chars (n : Numeral) (h : bound ≤ n.magnitude + 1 / 2) :
    isOversized n.chars = true := by
  have hlarge : 10 ^ 28 ≤ appendDigits 0 n.whole := by
    have hlt := (appendDigits_bounds n.fraction (appendDigits 0 n.whole)).2
    have hlt' : n.magnitude < appendDigits 0 n.whole + 1 := by
      rw [Numeral.magnitude, appendDigits_append, div_lt_iff₀ (by positivity)]
      exact_mod_cast hlt
    have hle : (10 ^ 28 : ℚ) ≤ appendDigits 0 n.whole := by
      have : (10 ^ 28 : ℚ) + 2 ≤ bound := by
        rw [bound]
        norm_num
      linarith
    exact_mod_cast hle
  have hlength : 28 < ((digitChars n.whole).dropWhile (· == '0')).length := by
    have hlt := (appendDigits_bounds (n.whole.dropWhile (· == 0)) 0).2
    rw [appendDigits_dropWhile, Nat.zero_add, Nat.one_mul] at hlt
    rw [dropWhile_digitChars, digitChars, List.length_map]
    exact (Nat.pow_lt_pow_iff_right (by decide)).1 (hlarge.trans_lt hlt)
  have hall (ds : List (Fin 10)) : (digitChars ds).all (digitValue? · |>.isSome) = true :=
    List.all_eq_true.2 fun _ hc ↦ isSome_digitValue?_of_mem ds hc
  have hne : (digitChars n.whole).isEmpty = false := by
    simpa [digitChars] using n.whole_ne_nil
  rw [isOversized, unsigned_eq, (takeWhile_unsigned n).1, (takeWhile_unsigned n).2]
  simp only [hall, hne, Bool.not_false, Bool.and_self, Bool.true_and, decide_eq_true_eq]
  exact hlength

/-! ## The number of a numeral

Reading and counting taken together: whichever of the two gives the number, it is the numeral
rounded. -/

/-- **The number of a numeral** is the numeral rounded, with its sign.  Where it cannot be read, its
length shows that it is too large, and it counts as the decimal at that end, which is what rounding
makes of it. -/
theorem ofText_numeral {s : String} {n : Numeral} (h : trimBlanks s.toList = n.chars) :
    ofText s ≠ .nothing ∧
      ∃ r, Rounds n.magnitude r ∧ (ofText s).number.value = n.sign.apply r := by
  have hne : n.chars.isEmpty = false := by
    obtain ⟨d, cs, h⟩ := n.exists_unsigned_eq
    rw [Numeral.chars, h]
    simp
  have hread := Magnitude.read_unsigned n
  cases hm : Magnitude.zero.read false false n.unsigned with
  | ok m =>
    have hexact : ofText s = .exact (m.signed (n.sign == .minus)) := by
      simp [ofText, h, hne, ofText_chars, hm, Except.map]
    rw [hm] at hread
    rw [hexact]
    exact ⟨by simp, m.value, hread, m.signed_value n.sign⟩
  | error e =>
    rw [hm] at hread
    have hclamped : ofText s = .clamped (if n.sign = .minus then .min else .max) := by
      simp [ofText, h, hne, ofText_chars, hm, Except.map, isOversized_chars n hread,
        head?_eq_minus_iff]
    rw [hclamped]
    refine ⟨by simp, max.value, .toMax hread, ?_⟩
    rw [number, Sign.apply]
    split
    · exact min_value
    · rfl

end Reading

namespace Value

/-- **Plain numerals count as the numbers they stand for.**  Their order is kept, so `-le` holds of
two numerals in order and `-gt` does not.  A number that some coefficient and scale stand for is met
exactly; a number beyond the largest and the smallest decimal counts as the one on its side.  No
numeral is taken for a text that is not a number. -/
theorem toNumber_of_numerals (s t : String) (n m : Numeral)
    (hs : trimBlanks s.toList = n.chars) (ht : trimBlanks t.toList = m.chars) :
    (n.value ≤ m.value →
      (string s).toNumber.value ≤ (string t).toNumber.value ∧
        CmpOp.holds ⟨true, .lessEqual⟩ (.string s) (.string t) = true ∧
        CmpOp.holds ⟨true, .greater⟩ (.string s) (.string t) = false) ∧
    (∀ (c : ℤ) (k : ℕ), n.value = c / 10 ^ k → |c| < 2 ^ 96 → k ≤ 28 →
      (string s).toNumber.value = n.value) ∧
    (Decimal.max.value < |n.value| →
      (string s).toNumber = if n.sign = .minus then Decimal.min else Decimal.max) ∧
    Reading.ofText s ≠ .nothing := by
  obtain ⟨hsome, r, hr, hrs⟩ := Reading.ofText_numeral hs
  obtain ⟨-, r', hr', hrt⟩ := Reading.ofText_numeral ht
  have habs : |n.value| = n.magnitude := by
    rw [Numeral.value, Sign.apply]
    split
    · rw [abs_neg, abs_of_nonneg n.magnitude_nonneg]
    · rw [abs_of_nonneg n.magnitude_nonneg]
  refine ⟨fun hle ↦ ?_, fun c k hv hc hk ↦ ?_, fun hmax ↦ ?_, hsome⟩
  · have hnumber : (string s).toNumber.value ≤ (string t).toNumber.value := by
      rw [toNumber, toNumber, hrs, hrt]
      exact hr.apply_mono hr' n.magnitude_nonneg m.magnitude_nonneg hle
    have hcmp : (string s).toNumber.cmp (string t).toNumber ≠ .gt := by
      rw [cmp_eq_compare]
      exact compare_le_iff_le.2 hnumber
    refine ⟨hnumber, bne_iff_ne.2 hcmp, beq_eq_false_iff_ne.2 hcmp⟩
  · have hc' : c.natAbs < bound := by
      have : ((c.natAbs : ℕ) : ℤ) < (bound : ℕ) := by
        rw [← Int.abs_eq_natAbs]
        exact hc
      exact_mod_cast this
    have hexact : n.magnitude = (c.natAbs : ℕ) / 10 ^ k := by
      rw [← habs, hv, abs_div, abs_of_pos (by positivity : (0 : ℚ) < 10 ^ k), Nat.cast_natAbs,
        Int.cast_abs]
    rw [toNumber, hrs, hr.eq_of_exact hc' hk hexact]
    rfl
  · rw [habs] at hmax
    rw [hr.eq_max hmax, Sign.apply] at hrs
    rw [toNumber]
    split at hrs
    · next hminus =>
      rw [if_pos hminus]
      exact eq_min_of_value_eq (hrs.trans min_value.symm)
    · next hminus =>
      rw [if_neg hminus]
      exact eq_max_of_value_eq hrs

/-- Two numerals at the upper end: the first is rounded to the largest decimal, the second is larger
and cannot be read. -/
theorem toNumber_of_numerals_upper_end :
    let s := " 79228162514264337593543950335.4"
    let t := "+79228162514264337593543950336 "
    (CmpOp.holds ⟨true, .lessEqual⟩ (.string s) (.string t) = true ∧
        CmpOp.holds ⟨true, .greater⟩ (.string s) (.string t) = false) ∧
      (string s).toNumber = Decimal.max ∧ (string t).toNumber = Decimal.max := by
  intro s t
  let whole : List (Fin 10) :=
    [7, 9, 2, 2, 8, 1, 6, 2, 5, 1, 4, 2, 6, 4, 3, 3, 7, 5, 9, 3, 5, 4, 3, 9, 5, 0, 3, 3]
  let n : Numeral := ⟨.absent, whole ++ [5], [4], by decide⟩
  let m : Numeral := ⟨.plus, whole ++ [6], [], by decide⟩
  have hs : trimBlanks s.toList = n.chars := by decide
  have ht : trimBlanks t.toList = m.chars := by decide
  have hn : n.value = 792281625142643375935439503354 / 10 := by
    have : appendDigits 0 (n.whole ++ n.fraction) = 792281625142643375935439503354 := by decide
    rw [Numeral.value, Numeral.magnitude, this]
    rfl
  have hm : m.value = 79228162514264337593543950336 := by
    have : appendDigits 0 (m.whole ++ m.fraction) = 79228162514264337593543950336 := by decide
    rw [Numeral.value, Numeral.magnitude, this]
    exact div_one _
  obtain ⟨horder, -, hmax, -⟩ := toNumber_of_numerals s t n m hs ht
  obtain ⟨-, -, hmax', -⟩ := toNumber_of_numerals t s m n ht hs
  refine ⟨(horder ?_).2, hmax ?_, hmax' ?_⟩
  · rw [hn, hm]
    norm_num
  · rw [hn, max_value, bound]
    norm_num [abs_of_pos]
  · rw [hm, max_value, bound]
    norm_num [abs_of_pos]

end Value

end RequestCondition

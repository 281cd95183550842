import RequestCondition.Decimal.Reader
import RequestCondition.Proofs.Decimal.Rounding

/-!
# Reading plain numerals

A plain numeral is a sign or none, some digits and, behind a point, some more digits: `Numeral`.  It
has an exact value, whatever its length.

Reading it as a decimal goes one of three ways.  The digits fit, and the value is exact; a digit
behind the point does not fit, and the value is rounded there; or the whole part is too large, or
becomes so by rounding, and reading fails.  `ReadsAs` says what all three have in common, and
`read_unsigned` that every numeral is read so.

The reader goes from digit to digit with the number that it has read so far.  What is left of the
digits makes a difference of less than one unit in the place it has come to (`appendDigits_bounds`).
That is enough to know how the number is rounded when the first digit that does not fit is looked
at, so the digits behind that one need not be (`round_readsAs`).

Rounding up may make a coefficient one too large.  Then the point moves by a place, which is again
rounding to as many places as there is room for (`Rounds.carry`), or there is no place left to give
up, and reading fails just below the bound.
-/

set_option autoImplicit false

namespace RequestCondition

namespace Decimal

/-! ## Numerals

A numeral is kept as its digits, so that its text and its value can be told from it, and neither
from the other. -/

/-- A digit as a character. -/
def digitChar (d : Fin 10) : Char := Nat.digitChar d

/-- The text of digits. -/
def digitChars (ds : List (Fin 10)) : List Char := ds.map digitChar

/-- The number that is written by the digits of `n` and, behind them, the digits `ds`. -/
def appendDigits (n : ℕ) (ds : List (Fin 10)) : ℕ :=
  ds.foldl (fun n (d : Fin 10) ↦ 10 * n + d) n

/-- What may stand in front of the digits. -/
inductive Sign where
  | absent | plus | minus
deriving DecidableEq

namespace Sign

/-- The text of a sign. -/
def chars : Sign → List Char
  | absent => []
  | plus => ['+']
  | minus => ['-']

/-- A number with the sign in front of it. -/
def apply (s : Sign) (v : ℚ) : ℚ := if s = minus then -v else v

end Sign

/-- A number in plain notation: at least one digit before the point; no point if there are no digits
behind it. -/
structure Numeral where
  sign : Sign
  whole : List (Fin 10)
  fraction : List (Fin 10)
  whole_ne_nil : whole ≠ [] := by decide

namespace Numeral

/-- The text behind the sign. -/
def unsigned (n : Numeral) : List Char :=
  digitChars n.whole ++ if n.fraction = [] then [] else '.' :: digitChars n.fraction

/-- The text of a numeral. -/
def chars (n : Numeral) : List Char := n.sign.chars ++ n.unsigned

/-- The number that is written behind the sign. -/
def magnitude (n : Numeral) : ℚ :=
  appendDigits 0 (n.whole ++ n.fraction) / 10 ^ n.fraction.length

/-- The number that a numeral stands for. -/
def value (n : Numeral) : ℚ := n.sign.apply n.magnitude

end Numeral

/-! ## Digits

A row of digits is read as a number from the front, each digit making the number ten times as large.
Zeros in front make no difference, and digits behind a number make less than one of it. -/

variable (d : Fin 10) (ds es : List (Fin 10))

@[simp] theorem digitValue?_digitChar : digitValue? (digitChar d) = some d.val := by
  revert d; decide

theorem digitChar_ne {c : Char} (hc : digitValue? c = none) : digitChar d ≠ c := by
  intro h
  rw [← h, digitValue?_digitChar] at hc
  cases hc

@[simp] theorem digitChars_nil : digitChars [] = [] := rfl

@[simp] theorem digitChars_cons : digitChars (d :: ds) = digitChar d :: digitChars ds := rfl

theorem isSome_digitValue?_of_mem {c : Char} (h : c ∈ digitChars ds) :
    (digitValue? c).isSome = true := by
  obtain ⟨d, -, rfl⟩ := List.mem_map.1 h
  rw [digitValue?_digitChar, Option.isSome_some]

theorem not_mem_digitChars {c : Char} (hc : digitValue? c = none) : c ∉ digitChars ds := by
  intro h
  have := isSome_digitValue?_of_mem ds h
  simp [hc] at this

theorem appendDigits_append (n : ℕ) :
    appendDigits n (ds ++ es) = appendDigits (appendDigits n ds) es := by
  rw [appendDigits, List.foldl_append]
  rfl

theorem appendDigits_cons (n : ℕ) :
    appendDigits n (d :: ds) = appendDigits (10 * n + d) ds := rfl

/-- The digits behind a number make a difference of less than one in the last place before them. -/
theorem appendDigits_bounds (n : ℕ) :
    n * 10 ^ ds.length ≤ appendDigits n ds ∧ appendDigits n ds < (n + 1) * 10 ^ ds.length := by
  induction ds generalizing n with
  | nil => simp [appendDigits]
  | cons d ds ih =>
    obtain ⟨hle, hlt⟩ := ih (10 * n + d)
    rw [appendDigits_cons, List.length_cons, pow_succ]
    constructor
    · calc n * (10 ^ ds.length * 10) = 10 * n * 10 ^ ds.length := by ring
        _ ≤ (10 * n + d) * 10 ^ ds.length := by gcongr; exact Nat.le_add_right _ _
        _ ≤ appendDigits (10 * n + d) ds := hle
    · calc appendDigits (10 * n + d) ds < (10 * n + d + 1) * 10 ^ ds.length := hlt
        _ ≤ (10 * n + 10) * 10 ^ ds.length := by
          have := d.isLt
          gcongr ?_ * _
          omega
        _ = (n + 1) * (10 ^ ds.length * 10) := by ring

theorem le_appendDigits (n : ℕ) : n ≤ appendDigits n ds :=
  (Nat.le_mul_of_pos_right n (by positivity)).trans (appendDigits_bounds ds n).1

/-- Zeros in front of the digits do not count. -/
theorem appendDigits_dropWhile : appendDigits 0 (ds.dropWhile (· == 0)) = appendDigits 0 ds := by
  induction ds with
  | nil => rfl
  | cons d ds ih =>
    by_cases h : d = 0
    · rw [h, List.dropWhile_cons_of_pos rfl, ih, appendDigits_cons]
      rfl
    · rw [List.dropWhile_cons_of_neg (by simpa using h)]

/-- They are dropped in the text as well. -/
theorem dropWhile_digitChars :
    (digitChars ds).dropWhile (· == '0') = digitChars (ds.dropWhile (· == 0)) := by
  have hzero : ((· == '0') ∘ digitChar) = (· == (0 : Fin 10)) := by
    funext d
    revert d
    decide
  rw [digitChars, digitChars, List.dropWhile_map, hzero]

/-! ## What reading makes of the digits

The number that has been read is a coefficient and a scale, as in a decimal, with the sign still
apart. -/

namespace Magnitude

variable (m : Magnitude)

/-- The number that has been read. -/
def value : ℚ := m.digits / 10 ^ m.scale

theorem signed_value (s : Sign) : (m.signed (s == .minus)).value = s.apply m.value := by
  cases s <;> simp [signed, Decimal.value, value, Sign.apply, neg_div]

/-- What reading the number `v` may result in: the number rounded, or a failure if it is too large
to be rounded. -/
def ReadsAs (v : ℚ) : Except DecimalError Magnitude → Prop
  | .ok m => Rounds v m.value
  | .error _ => bound ≤ v + 1 / 2

/-- What has been read is exact if there is nothing more to read. -/
theorem rounds_value : Rounds m.value m.value := by
  have hexact : roundTo m.scale m.value = m.value := by
    simpa [value] using roundTo_div le_rfl (m.digits : ℤ)
  have hfits : m.value * 10 ^ m.scale + 1 / 2 < bound := by
    have : (m.digits : ℚ) + 1 ≤ bound := by exact_mod_cast m.digits_lt
    rw [value, div_mul_cancel₀ _ (by positivity)]
    linarith
  simpa only [hexact] using Rounds.toPlaces m.scale m.scale_le hfits (.inl hexact)

/-- Rounding by the first digit that does not fit is rounding: the digits behind it make no
difference. -/
theorem round_readsAs {v : ℚ} (hfull : m.scale = 28 ∨ bound ≤ 10 * m.digits + d)
    (hle : (10 * m.digits + d : ℚ) ≤ v * 10 ^ (m.scale + 1))
    (hlt : v * 10 ^ (m.scale + 1) < 10 * m.digits + d + 1) : ReadsAs v (m.round d) := by
  have hten : v * 10 ^ (m.scale + 1) = 10 * (v * 10 ^ m.scale) := by rw [pow_succ]; ring
  have hlast : m.scale = 28 ∨ bound ≤ v * 10 ^ (m.scale + 1) + 1 / 2 := by
    refine hfull.imp_right fun h ↦ ?_
    have : (bound : ℚ) ≤ 10 * m.digits + d := by exact_mod_cast h
    linarith
  rw [hten] at hle hlt
  rw [round]
  split
  · next hd =>
    have hd' : (d : ℚ) + 1 ≤ 5 := by exact_mod_cast hd
    exact .toNearest m.scale_le m.digits_lt (by linarith) (by linarith) hlast
  · next hd =>
    have hd' : (5 : ℚ) ≤ d := by exact_mod_cast not_lt.1 hd
    have hd'' : (d : ℚ) + 1 ≤ 10 := by exact_mod_cast d.isLt
    have hup : (m.digits + 1 : ℚ) - 1 / 2 ≤ v * 10 ^ m.scale := by linarith
    have hdown : v * 10 ^ m.scale < m.digits + 1 := by linarith
    split
    · next hfits =>
      exact .toNearest m.scale_le hfits (by push_cast; exact hup) (by push_cast; linarith) hlast
    · next hfits =>
      have hmax : m.digits + 1 = bound := le_antisymm m.digits_lt (not_lt.1 hfits)
      have hmax' : (m.digits + 1 : ℚ) = bound := by exact_mod_cast hmax
      rw [hmax'] at hup hdown
      split
      · next hs =>
        show (bound : ℚ) ≤ v + 1 / 2
        rw [hs, pow_zero, mul_one] at hup
        linarith
      · next hs =>
        obtain ⟨p, hp⟩ := Nat.exists_eq_succ_of_ne_zero hs
        have hscale := m.scale_le
        rw [hp] at hup hdown hscale
        have hcarry : (m.digits + 5) / 10 = (bound + 4) / 10 := by rw [← hmax]
        show Rounds v (((m.digits + 5) / 10 : ℕ) / 10 ^ (m.scale - 1))
        rw [hcarry, hp]
        exact .carry ((Nat.le_succ p).trans hscale) hup hdown

/-! ## Reading

By induction on the digits.  Before the point a digit that does not fit is the end of it; behind the
point it is what the number is rounded by. -/

/-- A digit that fits is taken. -/
theorem read_digit_of_fits {afterPoint : Bool} (started : Bool) (cs : List Char)
    (h : 10 * m.digits + d < bound ∧ m.scale + afterPoint.toNat ≤ 28) :
    m.read afterPoint started (digitChar d :: cs) =
      read ⟨10 * m.digits + d, m.scale + afterPoint.toNat, h.1, h.2⟩ afterPoint true cs := by
  rw [read, digitValue?_digitChar]
  simp only [push?, dif_pos h]

/-- A digit that does not fit is what the number is rounded by, behind the point, and is too much
before it. -/
theorem read_digit_of_full {afterPoint : Bool} (started : Bool) (cs : List Char)
    (h : ¬(10 * m.digits + d < bound ∧ m.scale + afterPoint.toNat ≤ 28)) :
    m.read afterPoint started (digitChar d :: cs) =
      if afterPoint then do
        skipTail cs
        m.round d
      else .error .tooManyDigits := by
  rw [read, digitValue?_digitChar]
  simp only [push?, dif_neg h]

/-- The digits that are not taken are looked at, and found to be digits. -/
theorem skipTail_digitChars : skipTail (digitChars ds) = .ok () :=
  (skipTail_eq_ok_iff _).2 fun _ hc ↦ .inl (isSome_digitValue?_of_mem ds hc)

/-- The digits before the point are read one by one, as long as they fit. -/
theorem read_whole (started : Bool) (rest : List Char) (h : appendDigits m.digits ds < bound) :
    m.read false started (digitChars ds ++ rest) =
      read ⟨appendDigits m.digits ds, m.scale, h, m.scale_le⟩ false (started || !ds.isEmpty)
        rest := by
  induction ds generalizing m started with
  | nil => simp [appendDigits]
  | cons d ds ih =>
    have hfits : 10 * m.digits + d < bound ∧ m.scale + false.toNat ≤ 28 :=
      ⟨(le_appendDigits ds _).trans_lt h, m.scale_le⟩
    rw [digitChars_cons, List.cons_append, read_digit_of_fits d m _ _ hfits]
    simpa [appendDigits_cons] using ih ⟨10 * m.digits + d, m.scale, hfits.1, m.scale_le⟩ true h

/-- Digits before the point that do not fit are too many. -/
theorem read_whole_of_bound_le (started : Bool) (rest : List Char)
    (h : bound ≤ appendDigits m.digits ds) :
    m.read false started (digitChars ds ++ rest) = .error .tooManyDigits := by
  induction ds generalizing m started with
  | nil => exact absurd m.digits_lt (not_lt.2 h)
  | cons d ds ih =>
    rw [digitChars_cons, List.cons_append]
    by_cases hfits : 10 * m.digits + d < bound ∧ m.scale + false.toNat ≤ 28
    · rw [read_digit_of_fits d m _ _ hfits]
      exact ih _ true h
    · rw [read_digit_of_full d m _ _ hfits]
      rfl

/-- The digits behind the point are read until one does not fit, by which the number is rounded. -/
theorem read_fraction :
    ReadsAs (appendDigits m.digits ds / 10 ^ (m.scale + ds.length))
      (m.read true true (digitChars ds)) := by
  induction ds generalizing m with
  | nil => exact m.rounds_value
  | cons d ds ih =>
    rw [digitChars_cons]
    by_cases hfits : 10 * m.digits + d < bound ∧ m.scale + true.toNat ≤ 28
    · have := ih ⟨10 * m.digits + d, m.scale + 1, hfits.1, hfits.2⟩
      rw [Nat.add_assoc, Nat.add_comm 1] at this
      rwa [read_digit_of_fits d m _ _ hfits]
    · have hfull : m.scale = 28 ∨ bound ≤ 10 * m.digits + d := by
        have := m.scale_le
        rw [Bool.toNat_true] at hfits
        omega
      have hshift : (appendDigits m.digits (d :: ds) / 10 ^ (m.scale + (d :: ds).length) : ℚ) *
          10 ^ (m.scale + 1) = appendDigits (10 * m.digits + d) ds / 10 ^ ds.length := by
        rw [appendDigits_cons, List.length_cons, Nat.add_comm ds.length, ← Nat.add_assoc, pow_add]
        field_simp
      obtain ⟨hle, hlt⟩ := appendDigits_bounds ds (10 * m.digits + d)
      rw [read_digit_of_full d m _ _ hfits, if_pos rfl, skipTail_digitChars]
      refine m.round_readsAs d hfull ?_ ?_
      · rw [hshift, le_div_iff₀ (by positivity)]
        exact_mod_cast hle
      · rw [hshift, div_lt_iff₀ (by positivity)]
        exact_mod_cast hlt

/-- **A numeral is read as the number it stands for**: rounded, or not at all if it is too large.
The whole part fits or does not.  If it does not, the fraction makes no difference; if it does, the
digits of the fraction go on with what has been read. -/
theorem read_unsigned (n : Numeral) : ReadsAs n.magnitude (zero.read false false n.unsigned) := by
  rw [Numeral.unsigned, Numeral.magnitude, appendDigits_append]
  by_cases h : appendDigits 0 n.whole < bound
  · have hstarted : (false || !n.whole.isEmpty) = true := by simpa using n.whole_ne_nil
    rw [read_whole n.whole zero false _ h, hstarted]
    split
    · next hf =>
      rw [hf]
      exact rounds_value ⟨appendDigits 0 n.whole, 0, h, by decide⟩
    · have hpoint (m : Magnitude) (cs : List Char) :
          m.read false true ('.' :: cs) = m.read true true cs := by
        rw [read]
        rfl
      rw [hpoint]
      simpa only [zero, Nat.zero_add] using
        read_fraction n.fraction ⟨appendDigits 0 n.whole, 0, h, by decide⟩
  · rw [read_whole_of_bound_le n.whole zero false _ (not_lt.1 h)]
    have hle := (appendDigits_bounds n.fraction (appendDigits 0 n.whole)).1
    have hbound : (bound : ℚ) ≤ appendDigits 0 n.whole := by exact_mod_cast not_lt.1 h
    show (bound : ℚ) ≤ _ / _ + 1 / 2
    have : (appendDigits 0 n.whole : ℚ) ≤
        appendDigits (appendDigits 0 n.whole) n.fraction / 10 ^ n.fraction.length := by
      rw [le_div_iff₀ (by positivity)]
      exact_mod_cast hle
    linarith

end Magnitude

/-! ## The text of a numeral -/

namespace Numeral

variable (n : Numeral)

theorem magnitude_nonneg : 0 ≤ n.magnitude := by
  rw [magnitude]
  positivity

/-- The first character behind the sign is a digit. -/
theorem exists_unsigned_eq : ∃ d cs, n.unsigned = digitChar d :: cs := by
  obtain ⟨d, ds, h⟩ := List.exists_cons_of_ne_nil n.whole_ne_nil
  rw [unsigned, h, digitChars_cons, List.cons_append]
  exact ⟨d, _, rfl⟩

/-- What holds of digits, signs and the point holds of every character of a numeral. -/
theorem of_mem {p : Char → Prop} (hdigit : ∀ d, p (digitChar d)) (hplus : p '+') (hminus : p '-')
    (hpoint : p '.') {c : Char} (h : c ∈ n.chars) : p c := by
  have hdigits {ds : List (Fin 10)} (h : c ∈ digitChars ds) : p c := by
    obtain ⟨d, -, rfl⟩ := List.mem_map.1 h
    exact hdigit d
  rw [chars, unsigned] at h
  rcases List.mem_append.1 h with h | h
  · revert h
    cases n.sign <;> simp only [Sign.chars, List.not_mem_nil, List.mem_singleton]
    · exact False.elim
    · rintro rfl
      exact hplus
    · rintro rfl
      exact hminus
  · rcases List.mem_append.1 h with h | h
    · exact hdigits h
    · split at h
      · cases h
      · rcases List.mem_cons.1 h with rfl | h
        · exact hpoint
        · exact hdigits h

theorem not_isPowerMark_of_mem {c : Char} (h : c ∈ n.chars) : isPowerMark c = false := by
  have hdigit (d : Fin 10) : isPowerMark (digitChar d) = false := by
    revert d
    decide
  exact n.of_mem (p := fun c ↦ isPowerMark c = false) hdigit rfl rfl rfl h

end Numeral

/-- The sign of a numeral is read first, and the rest behind it. -/
theorem ofPlain_chars (n : Numeral) :
    ofPlain n.chars =
      (Magnitude.zero.read false false n.unsigned).map (·.signed (n.sign == .minus)) := by
  rw [Numeral.chars]
  cases n.sign with
  | absent =>
    obtain ⟨d, cs, h⟩ := n.exists_unsigned_eq
    rw [h, Sign.chars, List.nil_append, ofPlain]
    · rfl
    · simp
    · simpa using fun h ↦ absurd h (digitChar_ne d rfl)
    · simpa using fun h ↦ absurd h (digitChar_ne d rfl)
  | plus => rfl
  | minus => rfl

/-- There is no letter in a numeral that a power of ten could stand behind. -/
theorem ofText_chars (n : Numeral) :
    Decimal.ofText (String.ofList n.chars) =
      (Magnitude.zero.read false false n.unsigned).map (·.signed (n.sign == .minus)) := by
  have hany : ¬n.chars.any isPowerMark = true := by
    rw [Bool.not_eq_true, List.any_eq_false]
    exact fun c hc ↦ by simp [n.not_isPowerMark_of_mem hc]
  rw [Decimal.ofText, String.toList_ofList, if_neg hany, ofPlain_chars]

end Decimal

end RequestCondition

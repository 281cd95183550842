import RequestCondition.Proofs.Decimal.Text
import RequestCondition.Proofs.Json.Member

/-!
# Reading numerals as JSON numbers

A plain numeral is a JSON number if it has no plus sign and no needless zero at its front
(`Numeral.IsJson`).  In front of a text that it cannot go on in (`Ends`) it is read to its last
character: a whole number that fits into 64 bits as it is (`IsJson.read_whole`), and a fraction as
the double that its digits make, with or without a power of ten behind it (`IsJson.value_fraction`,
`IsJson.value_exponent`).  All that is asked of the digits is that they fit into 64 bits, so that
none of them is left out.

Which double the digits make is not asked here.  The reader collects a `Significand`, digits and a
power of ten, and hands it over; the two theorems at the end take as a hypothesis what that is
turned into.
-/

set_option autoImplicit false

namespace RequestCondition

open Decimal

/-! ## Digits

The reader takes digits as long as there are any, so what stands behind a row of them must not begin
with one. -/

section Digits

variable (ds : List (Fin 10)) {rest : List Char}

namespace JsonNumber

/-- No digit stands at the front of a text. -/
def NoDigit (rest : List Char) : Prop := ∀ c ∈ rest.head?, digitValue? c = none

/-- No number goes on in a text that stands behind it. -/
def Ends (rest : List Char) : Prop :=
  ∀ c ∈ rest.head?, digitValue? c = none ∧ c ≠ '.' ∧ isPowerMark c = false

theorem Ends.noDigit (h : Ends rest) : NoDigit rest := fun c hc ↦ (h c hc).1

/-- A row of digits is taken to its end. -/
theorem digits_append (h : NoDigit rest) :
    digits (digitChars ds ++ rest) = (ds.map Fin.val, rest) := by
  induction ds with
  | nil =>
    cases rest with
    | nil => rfl
    | cons c cs =>
      rw [digitChars_nil, List.nil_append, digits, h c rfl]
      rfl
  | cons d ds ih =>
    rw [digitChars_cons, List.cons_append, digits, digitValue?_digitChar]
    simp only [ih, List.map_cons]

/-- A row that is not empty will do where some digits are asked for. -/
theorem someDigits_append (hds : ds ≠ []) (h : NoDigit rest) :
    someDigits (digitChars ds ++ rest) = .ok (ds.map Fin.val, rest) := by
  obtain ⟨d, ds, rfl⟩ := List.exists_cons_of_ne_nil hds
  have hdigits := digits_append (d :: ds) h
  rw [digitChars_cons, List.cons_append] at hdigits ⊢
  unfold someDigits
  rw [hdigits]
  rfl

theorem valueOf_map : valueOf (ds.map Fin.val) = appendDigits 0 ds := by
  rw [valueOf, appendDigits, List.foldl_map]

end JsonNumber

namespace Significand

/-- Digits of the whole part are taken as long as they fit. -/
theorem pushWhole_of_fits (s : Significand) (h : appendDigits s.digits ds < JsonNumber.bound) :
    s.pushWhole (ds.map Fin.val) = ⟨appendDigits s.digits ds, s.exponent⟩ := by
  induction ds generalizing s with
  | nil => rfl
  | cons d ds ih =>
    have hfits : s.fits d = true := decide_eq_true ((le_appendDigits ds _).trans_lt h)
    rw [List.map_cons, pushWhole, if_pos hfits]
    exact ih ⟨10 * s.digits + d, s.exponent⟩ h

/-- Digits behind the point are taken as long as they fit, and each is counted in the exponent. -/
theorem pushFraction_of_fits (s : Significand) (h : appendDigits s.digits ds < JsonNumber.bound) :
    s.pushFraction (ds.map Fin.val) = ⟨appendDigits s.digits ds, s.exponent - ds.length⟩ := by
  induction ds generalizing s with
  | nil => simp [pushFraction, appendDigits]
  | cons d ds ih =>
    have hfits : s.fits d = true := decide_eq_true ((le_appendDigits ds _).trans_lt h)
    rw [List.map_cons, pushFraction, if_pos hfits, ih ⟨10 * s.digits + d, s.exponent - 1⟩ h]
    congr 1
    push_cast [List.length_cons]
    ring

end Significand

end Digits

/-! ## Numerals

The whole part comes first: a zero, or digits that do not begin with one.  What follows decides
whether it is a whole number or makes a double. -/

namespace Decimal.Numeral

variable {n : Numeral} {cs rest : List Char}

/-- Whether a numeral may stand in JSON: without a plus sign and without a zero in front of other
digits before the point. -/
structure IsJson (n : Numeral) : Prop where
  sign : n.sign ≠ .plus
  whole : n.whole.length = 1 ∨ n.whole.head? ≠ some 0

/-- The digits of a numeral and the power of ten that makes its number of them. -/
def significand (n : Numeral) : Significand :=
  ⟨appendDigits 0 (n.whole ++ n.fraction), -n.fraction.length⟩

/-- The whole part is taken to its end. -/
theorem IsJson.readWhole (hn : n.IsJson) (h : JsonNumber.NoDigit rest) :
    JsonNumber.whole (digitChars n.whole ++ rest) = .ok (n.whole.map Fin.val, rest) := by
  have hne : ∀ d ds, n.whole.map Fin.val ≠ 0 :: d :: ds := by
    intro d ds hds
    rcases hn.whole with hw | hw
    · have := congrArg List.length hds
      simp only [List.length_map, hw, List.length_cons] at this
      omega
    · obtain ⟨a, as, ha⟩ := List.exists_cons_of_ne_nil n.whole_ne_nil
      rw [ha, List.map_cons, List.cons.injEq, Fin.val_eq_zero_iff] at hds
      rw [ha, hds.1] at hw
      exact hw rfl
  simp only [JsonNumber.whole, JsonNumber.someDigits_append _ n.whole_ne_nil h, bind, Except.bind]
  split
  · next heq => exact absurd (congrArg Prod.fst heq) (hne _ _)
  · rfl

theorem unsigned_append (n : Numeral) (cs : List Char) :
    n.unsigned ++ cs = digitChars n.whole ++
      ((if n.fraction = [] then [] else '.' :: digitChars n.fraction) ++ cs) := by
  rw [unsigned, List.append_assoc]

/-- **A numeral with a fraction is taken digit by digit**, and so is one that an exponent follows.
-/
theorem IsJson.read_eq_readExponent (hn : n.IsJson) (negative : Bool)
    (hfits : appendDigits 0 (n.whole ++ n.fraction) < JsonNumber.bound) (h : JsonNumber.NoDigit cs)
    (hcs : n.fraction ≠ [] ∨ cs.head? = some 'e') :
    JsonNumber.read negative (n.unsigned ++ cs) =
      JsonNumber.readExponent negative n.significand cs := by
  rw [appendDigits_append] at hfits
  have hpush : Significand.pushWhole ⟨0, 0⟩ (n.whole.map Fin.val) = ⟨appendDigits 0 n.whole, 0⟩ :=
    Significand.pushWhole_of_fits _ ⟨0, 0⟩ ((le_appendDigits _ _).trans_lt hfits)
  rw [unsigned_append, significand, appendDigits_append]
  by_cases hf : n.fraction = []
  · obtain ⟨cs, rfl⟩ : ∃ ds, cs = 'e' :: ds :=
      List.head?_eq_some_iff.1 (hcs.resolve_left (not_not_intro hf))
    simp only [if_pos hf, List.nil_append, JsonNumber.read, hn.readWhole h, bind, Except.bind,
      hpush]
    rw [hf]
    rfl
  · have hpoint : JsonNumber.NoDigit ('.' :: (digitChars n.fraction ++ cs)) := by
      rintro c ⟨⟩
      rfl
    rw [if_neg hf, List.cons_append, JsonNumber.read, hn.readWhole hpoint]
    show (JsonNumber.someDigits (digitChars n.fraction ++ cs) >>= _) = _
    rw [JsonNumber.someDigits_append _ hf h]
    show JsonNumber.readExponent negative ((Significand.pushWhole _ _).pushFraction _) _ = _
    rw [hpush, Significand.pushFraction_of_fits _ _ hfits]
    simp

/-- A whole number that fits is read as one. -/
theorem IsJson.read_whole (hn : n.IsJson) (negative : Bool) {m : JsonNumber} (hf : n.fraction = [])
    (hm : JsonNumber.ofDigits? negative (appendDigits 0 n.whole) = some m)
    (h : JsonNumber.Ends rest) :
    JsonNumber.read negative (n.unsigned ++ rest) = .ok (m, rest) := by
  rw [unsigned_append, if_pos hf, List.nil_append]
  simp only [JsonNumber.read, hn.readWhole h.noDigit, bind, Except.bind, JsonNumber.valueOf_map, hm]
  split
  · next cs => exact absurd rfl (h '.' rfl).2.1
  · next cs => exact absurd (h 'e' rfl).2.2 (by decide)
  · next cs => exact absurd (h 'E' rfl).2.2 (by decide)
  · rfl

/-- **A numeral is a JSON number**, read behind its sign.  A value that begins with a digit or a
minus sign can be nothing else. -/
theorem IsJson.value_eq (hn : n.IsJson) (depth : ℕ) {m : JsonNumber}
    (h : JsonNumber.read (n.sign == .minus) (n.unsigned ++ cs) = .ok (m, rest)) :
    Json.value depth (n.chars ++ cs) = .ok (.number m, rest) := by
  obtain ⟨array, object, hvalue⟩ := Json.value_eq depth
  have hdigit (d : Fin 10) (cs : List Char) : Json.valueWith array object (digitChar d :: cs) =
      JsonNumber.read false (digitChar d :: cs) >>= fun r ↦ pure (.number r.1, r.2) := by
    have hspace : Json.isSpace (digitChar d) = false := by
      revert d
      decide
    rw [Json.valueWith, Json.skipSpace, List.dropWhile_cons_of_neg (by simp [hspace])]
    have hne {c : Char} {ds : List Char} (hc : digitValue? c = none) :
        digitChar d :: cs ≠ c :: ds := fun h ↦ digitChar_ne d hc (List.cons.inj h).1
    split
    · next h => cases h
    iterate 7 next h => exact absurd h (hne rfl)
    · next h =>
      obtain ⟨rfl, rfl⟩ := List.cons.inj h
      rw [digitValue?_digitChar]
      rfl
  have hsign := hn.sign
  rw [hvalue, chars]
  cases hs : n.sign with
  | absent =>
    obtain ⟨d, ds, hd⟩ := n.exists_unsigned_eq
    rw [hs, hd] at h
    rw [hd, Sign.chars, List.nil_append, List.cons_append, hdigit]
    show (JsonNumber.read (Sign.absent == .minus) _ >>= _) = _
    rw [← List.cons_append, h]
    rfl
  | plus => exact absurd hs hsign
  | minus =>
    rw [hs] at h
    show (JsonNumber.read (Sign.minus == .minus) (n.unsigned ++ cs) >>= _) = _
    rw [h]
    rfl

end Decimal.Numeral

/-! ## Exponents

An exponent is added to the one that the digits behind the point have made.  Only negative ones are
written. -/

namespace JsonNumber

variable {s : Significand} {negative : Bool} {m : JsonNumber} {rest : List Char}

theorem number_of_ofScientific {x : Double} (h : Double.ofScientific s.digits s.exponent = some x)
    (negative : Bool) : s.number negative = .ok (.double negative x) := by
  unfold Significand.number
  rw [h]

/-- Without an exponent the digits are all there is. -/
theorem readExponent_of_ends (hm : s.number negative = .ok m) (h : Ends rest) :
    readExponent negative s rest = .ok (m, rest) := by
  unfold readExponent
  split
  · exact absurd (h 'e' rfl).2.2 (by decide)
  · exact absurd (h 'E' rfl).2.2 (by decide)
  · rw [hm]
    rfl

/-- A negative exponent makes the power of ten smaller. -/
theorem readExponent_down {ks : List (Fin 10)} (hks : ks ≠ [])
    (hm : Significand.number ⟨s.digits, s.exponent - appendDigits 0 ks⟩ negative = .ok m)
    (h : NoDigit rest) :
    readExponent negative s ('e' :: '-' :: (digitChars ks ++ rest)) = .ok (m, rest) := by
  show (someDigits (digitChars ks ++ rest) >>= _) = _
  rw [someDigits_append _ hks h]
  show (Significand.number ⟨_, s.exponent + -(valueOf (ks.map Fin.val) : ℤ)⟩ _ >>= _) = _
  rw [valueOf_map, ← sub_eq_add_neg, hm]
  rfl

end JsonNumber

namespace Decimal.Numeral

variable {n : Numeral} {m : JsonNumber} {rest : List Char}

/-- **A numeral with a fraction is the double that its digits make.** -/
theorem IsJson.value_fraction (hn : n.IsJson) (hf : n.fraction ≠ [])
    (hfits : appendDigits 0 (n.whole ++ n.fraction) < JsonNumber.bound)
    (hm : n.significand.number (n.sign == .minus) = .ok m) (depth : ℕ) (h : JsonNumber.Ends rest) :
    Json.value depth (n.chars ++ rest) = .ok (.number m, rest) := by
  refine hn.value_eq depth ?_
  rw [hn.read_eq_readExponent _ hfits h.noDigit (.inl hf)]
  exact JsonNumber.readExponent_of_ends hm h

/-- The same with a negative power of ten behind it. -/
theorem IsJson.value_exponent (hn : n.IsJson) {ks : List (Fin 10)} (hks : ks ≠ [])
    (hfits : appendDigits 0 (n.whole ++ n.fraction) < JsonNumber.bound)
    (hm : Significand.number ⟨n.significand.digits, n.significand.exponent - appendDigits 0 ks⟩
      (n.sign == .minus) = .ok m) (depth : ℕ) (h : JsonNumber.Ends rest) :
    Json.value depth (n.chars ++ 'e' :: '-' :: digitChars ks ++ rest) = .ok (.number m, rest) := by
  have hmark : JsonNumber.NoDigit ('e' :: '-' :: (digitChars ks ++ rest)) := by
    rintro c ⟨⟩
    rfl
  rw [List.append_assoc]
  refine hn.value_eq depth ?_
  rw [List.cons_append, List.cons_append, hn.read_eq_readExponent _ hfits hmark (.inr rfl)]
  exact JsonNumber.readExponent_down hks hm h.noDigit

end Decimal.Numeral

end RequestCondition

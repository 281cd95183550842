import RequestCondition.Evaluator.Basic
import RequestCondition.Proofs.Decimal.Numeral
import RequestCondition.Proofs.Text.Bytes

/-!
# The text of a decimal

A decimal is written as a plain numeral without a plus sign, whose digits are those of the
coefficient and whose places are those of the scale (`exists_numeral`).  A coefficient that has
fewer digits than there are places gets zeros in front of it, so there is always a digit before the
point.

Such a numeral fits wherever it is read, because the decimal fitted, so reading it back does not
round: `ofText_toText` holds for every decimal, whatever its scale.  A value of a condition is
written at its smallest scale.  Hence its text is a name for its number: it counts as that number
again, and two numbers have the same text exactly if they are equal (`Value.number_of_text`).

A list is searched for a value by its text.  So the last part of the theorem is about numbers in a
list: they are found by their texts exactly as they would be found by their values.
-/

set_option autoImplicit false

namespace RequestCondition

namespace Decimal

/-! ## Digits of a number

The digits of a whole number are those that it is read from, the highest first, and zeros in front
of them are allowed. -/

variable (ds : List (Fin 10))

theorem length_digitChars : (digitChars ds).length = ds.length := List.length_map _

/-- The digits of a number are read as the number. -/
theorem exists_toDigits (n : ℕ) :
    ∃ ds : List (Fin 10), Nat.toDigits 10 n = digitChars ds ∧ appendDigits 0 ds = n := by
  induction n using Nat.strongRecOn with
  | ind n ih =>
    rcases Nat.lt_or_ge n 10 with h | h
    · refine ⟨[⟨n, h⟩], Nat.toDigits_of_lt_base h, ?_⟩
      simp [appendDigits]
    · obtain ⟨ds, hds, hn⟩ := ih (n / 10) (by omega)
      have hlt : n % 10 < 10 := Nat.mod_lt _ (by decide)
      refine ⟨ds ++ [⟨n % 10, hlt⟩], ?_, ?_⟩
      · rw [Nat.toDigits_of_base_le (by decide) h, hds]
        simp [digitChars, digitChar]
      · rw [appendDigits_append, hn]
        exact Nat.div_add_mod n 10

theorem appendDigits_replicate_zero (k : ℕ) :
    appendDigits 0 (List.replicate k 0 ++ ds) = appendDigits 0 ds := by
  induction k with
  | zero => rfl
  | succ k ih => exact ih

/-- Zeros in front of a number make no difference. -/
theorem exists_digits (width n : ℕ) :
    ∃ ds : List (Fin 10), digits width n = digitChars ds ∧ appendDigits 0 ds = n ∧
      width ≤ ds.length := by
  obtain ⟨ds, hds, hn⟩ := exists_toDigits n
  refine ⟨List.replicate (width - ds.length) 0 ++ ds, ?_, ?_, ?_⟩
  · have hzero : '0' = digitChar 0 := rfl
    simp only [digits, hds, length_digitChars, hzero]
    simp [digitChars]
  · rw [appendDigits_replicate_zero, hn]
  · simp only [List.length_append, List.length_replicate]
    omega

/-- **How a decimal is written.**  The scale says where the point is, counted from the end. -/
theorem exists_numeral (d : Decimal) :
    ∃ n : Numeral, d.toText = String.ofList n.chars ∧
      n.sign = (if d.coefficient < 0 then .minus else .absent) ∧
      appendDigits 0 (n.whole ++ n.fraction) = d.coefficient.natAbs ∧
      n.fraction.length = d.scale := by
  obtain ⟨ds, hds, hn, hlength⟩ := exists_digits (d.scale + 1) d.coefficient.natAbs
  have hscale : (ds.drop (ds.length - d.scale)).length = d.scale := by
    rw [List.length_drop]
    omega
  have hwhole : ds.take (ds.length - d.scale) ≠ [] := by
    rw [← List.length_pos_iff, List.length_take]
    omega
  refine ⟨⟨if d.coefficient < 0 then .minus else .absent, _, ds.drop (ds.length - d.scale), hwhole⟩,
    ?_, rfl, ?_, hscale⟩
  · have hsign : (if d.coefficient < 0 then ['-'] else []) =
        Sign.chars (if d.coefficient < 0 then .minus else .absent) := by
      split <;> rfl
    have hfraction : ds.drop (ds.length - d.scale) = [] ↔ d.scale = 0 := by
      rw [← List.length_eq_zero_iff, hscale]
    simp only [toText, hds, length_digitChars, hsign, Numeral.chars, Numeral.unsigned, hfraction,
      List.append_assoc]
    simp only [digitChars, List.map_take, List.map_drop]
  · rw [List.take_append_drop, hn]

/-! ## Reading back what has been written

Where everything fits there is nothing to round, and the scale comes out as the number of digits
behind the point, which is what it was. -/

namespace Magnitude

/-- As long as the digits behind the point fit, they are read one by one. -/
theorem read_fraction_of_fits (m : Magnitude) (hd : appendDigits m.digits ds < bound)
    (hs : m.scale + ds.length ≤ 28) :
    ∃ m', m.read true true (digitChars ds) = .ok m' ∧
      m'.digits = appendDigits m.digits ds ∧ m'.scale = m.scale + ds.length := by
  induction ds generalizing m with
  | nil => exact ⟨m, rfl, rfl, rfl⟩
  | cons d ds ih =>
    rw [List.length_cons] at hs ⊢
    have hfits : 10 * m.digits + d < bound ∧ m.scale + true.toNat ≤ 28 := by
      refine ⟨(le_appendDigits ds _).trans_lt hd, ?_⟩
      rw [Bool.toNat_true]
      omega
    have hs' : m.scale + 1 + ds.length ≤ 28 := by omega
    obtain ⟨m', hread, hdigits, hscale⟩ :=
      ih ⟨10 * m.digits + d, m.scale + true.toNat, hfits.1, hfits.2⟩ hd hs'
    refine ⟨m', ?_, hdigits, ?_⟩
    · rw [digitChars_cons, read_digit_of_fits d m _ _ hfits, hread]
    · rw [hscale]
      show m.scale + 1 + ds.length = _
      omega

/-- **A numeral that fits is read exactly**, with all its places. -/
theorem read_unsigned_of_fits {n : Numeral} (hd : appendDigits 0 (n.whole ++ n.fraction) < bound)
    (hs : n.fraction.length ≤ 28) :
    ∃ m, zero.read false false n.unsigned = .ok m ∧
      m.digits = appendDigits 0 (n.whole ++ n.fraction) ∧ m.scale = n.fraction.length := by
  rw [appendDigits_append] at hd ⊢
  have hwhole : appendDigits zero.digits n.whole < bound := (le_appendDigits _ _).trans_lt hd
  have hstarted : (false || !n.whole.isEmpty) = true := by simpa using n.whole_ne_nil
  rw [Numeral.unsigned, read_whole n.whole zero false _ hwhole, hstarted]
  split
  · next hf =>
    refine ⟨_, rfl, ?_, ?_⟩
    · rw [hf]
      rfl
    · rw [hf]
      rfl
  · obtain ⟨m, hread, hdigits, hscale⟩ :=
      read_fraction_of_fits n.fraction ⟨appendDigits 0 n.whole, 0, hwhole, by decide⟩ hd (by simpa)
    refine ⟨m, ?_, hdigits, ?_⟩
    · rw [← hread, read]
      rfl
    · simpa using hscale

end Magnitude

/-- **Every decimal is read back as it is**, places included.  Its digits are those of the
coefficient, so they fit, and they are as many behind the point as the scale says. -/
theorem ofText_toText (d : Decimal) : Decimal.ofText d.toText = .ok d := by
  obtain ⟨n, htext, hsign, hdigits, hscale⟩ := d.exists_numeral
  obtain ⟨m, hread, hm, hms⟩ := Magnitude.read_unsigned_of_fits (n := n)
    (hdigits ▸ d.coefficient_lt) (hscale ▸ d.scale_le)
  rw [htext, ofText_chars, hread]
  refine congrArg Except.ok (Decimal.ext ?_ (hms.trans hscale))
  rw [hdigits] at hm
  by_cases hneg : d.coefficient < 0
  · have hminus : (n.sign == .minus) = true := by simp [hsign, hneg]
    simp only [Magnitude.signed, hm, hminus, if_true]
    omega
  · have hminus : (n.sign == .minus) = false := by simp [hsign, hneg]
    simp only [Magnitude.signed, hm, hminus, Bool.false_eq_true, if_false]
    omega

/-- Two decimals that are written alike are the same, places included. -/
theorem toText_injective : Function.Injective toText := by
  intro a b h
  have hread := congrArg Decimal.ofText h
  rw [ofText_toText, ofText_toText] at hread
  exact Except.ok.inj hread

/-- There is nothing to trim. -/
theorem trimBlanks_toText (d : Decimal) : trimBlanks d.toText.toList = d.toText.toList := by
  obtain ⟨n, htext, -⟩ := d.exists_numeral
  have hdigit (d : Fin 10) : isBlank (digitChar d) = false := by
    revert d
    decide
  have hblank {cs : List Char} (h : ∀ c ∈ cs, c ∈ n.chars) : cs.dropWhile isBlank = cs := by
    cases cs with
    | nil => rfl
    | cons c cs =>
      have hc := n.of_mem (p := fun c ↦ isBlank c = false) hdigit rfl rfl rfl (h c (by simp))
      exact List.dropWhile_cons_of_neg (by simp [hc])
  rw [htext, String.toList_ofList, trimBlanks, hblank fun _ h ↦ h,
    hblank fun _ h ↦ List.mem_reverse.1 h, List.reverse_reverse]

end Decimal

/-! ## The text of a number as a value

The text of a value is that of its normal form, so it is the same for all decimals of one value. -/

namespace Value

variable (n a b : Decimal)

/-- The text of a number is read as exactly that number. -/
theorem reading_text_number : Reading.ofText (number n).text = .exact n.normalize := by
  have hne : n.normalize.toText.toList.isEmpty = false := by
    obtain ⟨m, htext, -⟩ := n.normalize.exists_numeral
    obtain ⟨d, cs, hm⟩ := m.exists_unsigned_eq
    rw [htext, String.toList_ofList, Decimal.Numeral.chars, hm]
    simp
  simp [Reading.ofText, text, Decimal.trimBlanks_toText, hne, Decimal.ofText_toText]

theorem text_number_eq_iff : (number a).text = (number b).text ↔ a.value = b.value := by
  rw [← Decimal.normalize_eq_iff]
  exact Decimal.toText_injective.eq_iff

/-- A text is looked for among numbers by their texts. -/
theorem evalIn_numbers (env : Environment) (s : String) (ds : List Decimal) (c : Captures) :
    env.evalIn s (ds.map .number) c = ⟨.ok (ds.any fun d ↦ (number d).text == s), c, []⟩ := by
  induction ds with
  | nil => rfl
  | cons d ds ih =>
    have heval : env.eval (.number d) c = ⟨.ok (.number d), c, []⟩ := by
      rw [Environment.eval, Walk.pure_apply]
    rw [List.map_cons, Environment.evalIn, Walk.bind_ok _ heval, List.any_cons]
    cases (number d).text == s with
    | true => rfl
    | false => simp [ih]

/-- Numbers are looked for in a list by their texts. -/
theorem eval_isIn_numbers (env : Environment) (ds : List Decimal) (c : Captures) :
    env.eval (.isIn (.number n) (ds.map .number)) c =
      ⟨.ok (.boolean (ds.any fun d ↦ (number d).text == (number n).text)), c, []⟩ := by
  have heval : env.eval (.number n) c = ⟨.ok (.number n), c, []⟩ := by
    rw [Environment.eval, Walk.pure_apply]
  rw [Environment.eval, Walk.bind_ok _ heval, Walk.bind_ok _ (evalIn_numbers env _ ds c)]
  rfl

theorem holds_numeric_equal_iff :
    CmpOp.holds ⟨true, .equal⟩ (number a) (number b) = true ↔ a.value = b.value :=
  Decimal.sameValue_iff a b

theorem holds_textual_equal_iff (v w : Value) :
    CmpOp.holds ⟨false, .equal⟩ v w = true ↔ v.text = w.text := by
  rw [← compareBytes_eq_eq_iff]
  exact beq_iff_eq

/-- **The text of a number is a name for it.**  Read as a number, it is plain notation of the same
value, which is neither clamped nor taken for zero, and there is nothing to warn about.  Two
numbers, of whatever scales, are equal by their values exactly if they are equal by their texts, and
a list of numbers has a number as a member exactly if one of them is equal to it. -/
theorem number_of_text (env : Environment) (ds : List Decimal) (c : Captures) :
    (Decimal.ofText (trim (number n).text) = .ok n.normalize ∧
      Reading.ofText (number n).text = .exact n.normalize ∧
      (string (number n).text).toNumber.value = n.value ∧
      (string (number n).text).numberWarnings = []) ∧
    (CmpOp.holds ⟨true, .equal⟩ (number a) (number b) = true ↔
      CmpOp.holds ⟨false, .equal⟩ (number a) (number b) = true) ∧
    (CmpOp.holds ⟨true, .equal⟩ (number a) (number b) = true ↔ a.value = b.value) ∧
    (env.eval (.isIn (.number n) (ds.map .number)) c).result =
      .ok (.boolean (ds.any fun d ↦ CmpOp.holds ⟨true, .equal⟩ (number d) (number n))) := by
  have hequal (d e : Decimal) : CmpOp.holds ⟨true, .equal⟩ (number d) (number e) = true ↔
      CmpOp.holds ⟨false, .equal⟩ (number d) (number e) = true := by
    rw [holds_numeric_equal_iff, holds_textual_equal_iff, text_number_eq_iff]
  have hreading := reading_text_number n
  refine ⟨⟨?_, hreading, ?_, ?_⟩, hequal a b, holds_numeric_equal_iff a b, ?_⟩
  · show Decimal.ofText (String.ofList (trimBlanks n.normalize.toText.toList)) = _
    rw [Decimal.trimBlanks_toText, String.ofList_toList, Decimal.ofText_toText]
  · rw [toNumber, hreading]
    exact Decimal.normalize_value n
  · rw [numberWarnings, hreading]
    rfl
  · have hany (d : Decimal) : ((number d).text == (number n).text) =
        CmpOp.holds ⟨true, .equal⟩ (number d) (number n) := by
      rw [Bool.eq_iff_iff, hequal, holds_textual_equal_iff, beq_iff_eq]
    simp only [eval_isIn_numbers, hany]

example : (number ⟨-10500, 4, by decide, by decide⟩).text = "-1.05" := by decide

end Value

end RequestCondition

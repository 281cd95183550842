import RequestCondition.Proofs.Double.Shortest
import RequestCondition.Proofs.Json.Numeral
import RequestCondition.Variables

/-!
# Values that survive JSON

A value goes out as a JSON value and comes in again as a variable.  Truth values and texts come back
as they went.  A number is written in plain notation, read as a JSON number, written again as JSON
writes numbers, read again, and read as a decimal from the text that JSON has for it.

* A whole number of 64 bits is the same text all the way (`Decimal.isNumber_integer`).
* Any other number becomes a double.  Up to fifteen digits, with at most 22 places, are the shortest
  decimal of the double that is read from them (`Double.exists_shortest`).  They are written
  positionally, which is plain notation again (`Double.toText_eq_positional`), or, if the number is
  small, with a negative power of ten, which both readers take (`Decimal.isNumber_of_exponent`).

Beyond that digits get lost, and the largest decimal is not even read again
(`Bindings.not_resolved_of_value`).

`Decimal.IsNumber` has what is wanted of a decimal and a JSON number on the way.  It is stated for a
number in front of any text that the number cannot go on in, because it is used twice: once where
the number is all there is, and once where the closing brace of an object is behind it.

The condition `Value.FitsJson` is decided from the normal form, since that is what is written.  It
is sufficient and not necessary; numbers of more digits survive if they happen to be doubles.
-/

set_option autoImplicit false

namespace RequestCondition

open Decimal

/-! ## The text of a decimal

A decimal is written without a plus sign.  It has a zero in front only if that is the one digit
before the point. -/

namespace Decimal

/-- The sign that is written in front of a decimal. -/
def sign (d : Decimal) : Sign := if d.coefficient < 0 then .minus else .absent

variable (d : Decimal)

theorem sign_ne_plus : d.sign ≠ .plus := by
  rw [sign]
  split <;> decide

theorem sign_chars : (if d.coefficient < 0 then ['-'] else []) = d.sign.chars := by
  rw [sign]
  split <;> rfl

theorem sign_eq_minus_iff : (d.sign == .minus) = true ↔ d.coefficient < 0 := by
  rw [sign]
  split
  · next h => exact iff_of_true rfl h
  · next h => exact iff_of_false (by decide) h

theorem exists_toDigits_ne_nil (n : ℕ) :
    ∃ ds, Nat.toDigits 10 n = digitChars ds ∧ ds ≠ [] ∧ appendDigits 0 ds = n := by
  obtain ⟨ds, hds, hvalue⟩ := exists_toDigits n
  refine ⟨ds, hds, ?_, hvalue⟩
  rintro rfl
  exact Nat.toDigits_ne_nil hds

/-- With two digits before the point there are no zeros in front of those of the coefficient. -/
theorem length_toDigits_of_two_le {n : Numeral} (htext : d.toText = String.ofList n.chars)
    (hsign : n.sign = d.sign) (hscale : n.fraction.length = d.scale) (h : 2 ≤ n.whole.length) :
    (Nat.toDigits 10 d.coefficient.natAbs).length = n.whole.length + d.scale := by
  have hfraction : n.fraction = [] ↔ d.scale = 0 := by
    rw [← List.length_eq_zero_iff, hscale]
  have hlength := congrArg (fun s ↦ s.toList.length) htext
  simp only [toText, digits, Numeral.chars, Numeral.unsigned, String.toList_ofList, sign_chars,
    List.length_append, List.length_take, List.length_replicate, length_digitChars, hsign,
    hfraction] at hlength
  by_cases hs : d.scale = 0
  · simp only [hs, if_true, List.length_nil] at hlength
    omega
  · simp only [if_neg hs, List.length_cons, List.length_drop, List.length_append,
      List.length_replicate, length_digitChars, hscale] at hlength
    omega

/-- **The text of a decimal is a JSON number.**  It could fail to be one by a zero in front of
another digit.  There is none: zeros are put in front of the coefficient only to have a digit before
the point. -/
theorem exists_jsonNumeral :
    ∃ n : Numeral, d.toText = String.ofList n.chars ∧ n.IsJson ∧ n.sign = d.sign ∧
      appendDigits 0 (n.whole ++ n.fraction) = d.coefficient.natAbs ∧
      n.fraction.length = d.scale := by
  obtain ⟨n, htext, hsign, hdigits, hscale⟩ := d.exists_numeral
  change n.sign = d.sign at hsign
  refine ⟨n, htext, ⟨hsign ▸ d.sign_ne_plus, ?_⟩, hsign, hdigits, hscale⟩
  rw [or_iff_not_imp_left]
  intro hone hzero
  -- A zero in front of another digit would make the coefficient shorter than it is written.
  obtain ⟨es, hes⟩ := List.head?_eq_some_iff.1 hzero
  have htwo : 2 ≤ n.whole.length := by
    have := List.length_pos_iff.2 n.whole_ne_nil
    omega
  have hlength := d.length_toDigits_of_two_le htext hsign hscale htwo
  have hlt : d.coefficient.natAbs < 10 ^ (es.length + d.scale) := by
    rw [← hdigits, hes, List.cons_append, appendDigits_cons, ← hscale, ← List.length_append]
    simpa using (appendDigits_bounds (es ++ n.fraction) 0).2
  rw [hes, List.length_cons] at htwo hlength
  have hle := (Nat.length_toDigits_le_iff (by decide) (by omega)).2 hlt
  omega

end Decimal

/-! ## The text of a double

The digits of the shortest decimal are written with a point among them, or with an exponent, as the
place of the first digit tells. -/

namespace Double

/-- Plain notation is positional. -/
theorem toText_eq_positional {d : Decimal} (hs : 0 < d.scale) :
    d.toText = String.ofList (d.sign.chars ++ positional (digitsOf d.coefficient.natAbs)
      ((digitsOf d.coefficient.natAbs).length - d.scale)) := by
  simp only [toText, digitsOf, digits, if_neg hs.ne', List.append_assoc, sign_chars]
  congr 2
  generalize Nat.toDigits 10 d.coefficient.natAbs = ds
  rcases Nat.lt_or_ge ds.length d.scale with hlt | hge
  · obtain ⟨k, hk⟩ : ∃ k, d.scale = ds.length + k + 1 := ⟨d.scale - ds.length - 1, by omega⟩
    have hplaces : (ds.length : ℤ) - d.scale = .negSucc k := by omega
    have hzeros : d.scale + 1 - ds.length = k + 1 + 1 := by omega
    have hone : (List.replicate (k + 1 + 1) '0' ++ ds).length - d.scale = 1 := by
      rw [List.length_append, List.length_replicate]
      omega
    rw [hplaces, positional, hzeros, hone]
    rfl
  · obtain ⟨k, hk⟩ : ∃ k, ds.length = d.scale + k := ⟨ds.length - d.scale, by omega⟩
    have hplaces : (ds.length : ℤ) - d.scale = .ofNat k := by
      rw [hk]
      push_cast
      exact add_sub_cancel_left ..
    rw [hplaces, positional, if_neg (by omega)]
    split
    · have hzeros : d.scale + 1 - ds.length = 1 := by omega
      have hone : (List.replicate 1 '0' ++ ds).length - d.scale = 1 := by
        rw [List.length_append, List.length_replicate]
        omega
      rw [hzeros, hone]
      rfl
    · have hzeros : d.scale + 1 - ds.length = 0 := by omega
      rw [hzeros, List.replicate_zero, List.nil_append, hk, Nat.add_sub_cancel_left]

/-- Digits with an exponent are a numeral and a negative power of ten. -/
theorem withExponent_digitChars (a : Fin 10) (more : List (Fin 10)) (sign : Sign) {leading : ℤ}
    (hneg : leading < 0) :
    withExponent (digitChars (a :: more)) leading =
      Numeral.unsigned ⟨sign, [a], more, List.cons_ne_nil _ _⟩ ++
        'e' :: '-' :: digitsOf leading.natAbs := by
  unfold withExponent
  rw [if_pos hneg]
  cases more with
  | nil => rfl
  | cons b more => rfl

/-- The text of a double follows from its shortest decimal. -/
theorem text_of_shortest {x : Double} {c : ℕ} {p : ℤ} (d : Decimal) (hx : 0 < x.significand)
    (h : x.shortest = ⟨c, p⟩) :
    (JsonNumber.double (d.sign == .minus) x).text = String.ofList (d.sign.chars ++
      if -5 ≤ p + (digitsOf c).length - 1 ∧ p + (digitsOf c).length - 1 ≤ 15 then
        positional (digitsOf c) (p + (digitsOf c).length)
      else withExponent (digitsOf c) (p + (digitsOf c).length - 1)) := by
  have hzero : x.isZero = false := by
    rw [isZero, beq_eq_false_iff_ne]
    omega
  rw [JsonNumber.text, text, hzero, h, sign]
  split
  · simp [Sign.chars]
  · simp [Sign.chars]

end Double

/-! ## Exponents in a decimal

The reader of decimals takes a power of ten as well.  If the places that it asks for fit, nothing is
rounded. -/

namespace Decimal

/-- Digits of a number of 32 bits are read as it. -/
theorem word32?_digitChars {ks : List (Fin 10)} (hks : ks ≠ [])
    (h : appendDigits 0 ks < 4294967296) :
    word32? (digitChars ks) = some (appendDigits 0 ks) := by
  have hfold (ks : List (Fin 10)) (n : ℕ) (h : appendDigits n ks < 4294967296) :
      ((digitChars ks).foldlM (fun n c ↦ (digitValue? c).bind fun d ↦
        if 10 * n + d < 4294967296 then some (10 * n + d) else none) n) =
          some (appendDigits n ks) := by
    induction ks generalizing n with
    | nil => rfl
    | cons k ks ih =>
      have hfits : 10 * n + k.val < 4294967296 := (le_appendDigits ks _).trans_lt h
      rw [digitChars_cons, List.foldlM_cons, digitValue?_digitChar]
      simp only [Option.bind_some, if_pos hfits, Option.bind_eq_bind]
      exact ih _ h
  obtain ⟨k, ks, rfl⟩ := List.exists_cons_of_ne_nil hks
  have hplus : (digitChars (k :: ks)).head? ≠ some '+' := by
    simpa using digitChar_ne k rfl
  rw [word32?, if_neg hplus]
  exact hfold _ _ h

variable {d : Decimal} {n : Numeral} {ks : List (Fin 10)}

/-- **A numeral that a negative power of ten follows is read exactly**, if it fits.  The numeral is
read on its own, with its own places, and the power adds to them. -/
theorem ofText_exponent (hks : ks ≠ []) (hsign : n.sign = d.sign)
    (hdigits : appendDigits 0 (n.whole ++ n.fraction) = d.coefficient.natAbs)
    (hscale : n.fraction.length + appendDigits 0 ks = d.scale) :
    Decimal.ofText (String.ofList (n.chars ++ 'e' :: '-' :: digitChars ks)) = .ok d := by
  have hd := d.scale_le
  obtain ⟨m, hread, hm, hms⟩ := Magnitude.read_unsigned_of_fits (n := n)
    (hdigits ▸ d.coefficient_lt) (by omega)
  have hplain := ofPlain_chars n
  rw [hread] at hplain
  have hk : appendDigits 0 ks < 4294967296 := by omega
  have hnone : ∀ c ∈ n.chars, (!isPowerMark c) = true := fun c hc ↦ by
    rw [n.not_isPowerMark_of_mem hc, Bool.not_false]
  have hany : (n.chars ++ 'e' :: '-' :: digitChars ks).any isPowerMark = true :=
    List.any_eq_true.2 ⟨'e', by simp, rfl⟩
  have hbase : (n.chars ++ 'e' :: '-' :: digitChars ks).takeWhile (!isPowerMark ·) = n.chars := by
    rw [List.takeWhile_append_of_pos hnone, List.takeWhile_cons_of_neg (by decide), List.append_nil]
  have hpower : ((n.chars ++ 'e' :: '-' :: digitChars ks).dropWhile (!isPowerMark ·)).tail =
      '-' :: digitChars ks := by
    rw [List.dropWhile_append_of_pos hnone, List.dropWhile_cons_of_neg (by decide), List.tail_cons]
  have hfits : (m.signed (n.sign == .minus)).scale + appendDigits 0 ks ≤ 28 := by
    show m.scale + _ ≤ 28
    omega
  rw [Decimal.ofText, String.toList_ofList, if_pos hany, hbase, hpower, ofScientific, hplain]
  simp only [Except.map, bind, Except.bind, word32?_digitChars hks hk, shiftDown, dif_pos hfits]
  refine congrArg Except.ok (Decimal.ext ?_ ?_)
  · simp only [Magnitude.signed, hm, hdigits, hsign, sign_eq_minus_iff]
    split <;> omega
  · show m.scale + _ = _
    omega

end Decimal

/-! ## Numbers

Either the text does not change at all when it comes back from JSON, or it changes to digits with an
exponent.  `isNumber_of_text_eq` and `isNumber_of_exponent` are for the two cases. -/

/-- The text of `d` is the JSON number `m`, which is written so that it is read as itself and as
`d`. -/
structure Decimal.IsNumber (d : Decimal) (m : JsonNumber) : Prop where
  value_toText : ∀ depth rest, JsonNumber.Ends rest →
    Json.value depth (d.toText.toList ++ rest) = .ok (.number m, rest)
  value_text : ∀ depth rest, JsonNumber.Ends rest →
    Json.value depth (m.text.toList ++ rest) = .ok (.number m, rest)
  ofText_text : Decimal.ofText m.text = .ok d

namespace Decimal

variable {d : Decimal} {m : JsonNumber}

/-- It is enough that the text of `d` is read as a number that has that text. -/
theorem isNumber_of_text_eq (htext : m.text = d.toText)
    (h : ∀ depth rest, JsonNumber.Ends rest →
      Json.value depth (d.toText.toList ++ rest) = .ok (.number m, rest)) : d.IsNumber m :=
  ⟨h, htext ▸ h, htext ▸ ofText_toText d⟩

theorem ofDigits?_coefficient (hlow : -2 ^ 63 ≤ d.coefficient) (hhigh : d.coefficient < 2 ^ 64) :
    JsonNumber.ofDigits? (d.sign == .minus) d.coefficient.natAbs =
      some (.integer d.coefficient) := by
  have hbound : JsonNumber.bound = 2 ^ 64 := rfl
  simp only [JsonNumber.ofDigits?, sign_eq_minus_iff]
  split
  · rw [if_pos (by omega)]
    congr 2
    omega
  · rw [if_pos (by omega)]
    congr 2
    omega

/-- A whole number of 64 bits is itself in JSON. -/
theorem isNumber_integer (hs : d.scale = 0) (hlow : -2 ^ 63 ≤ d.coefficient)
    (hhigh : d.coefficient < 2 ^ 64) : d.IsNumber (.integer d.coefficient) := by
  obtain ⟨n, htext, hn, hsign, hdigits, hscale⟩ := d.exists_jsonNumeral
  have hf : n.fraction = [] := List.length_eq_zero_iff.1 (hscale.trans hs)
  rw [hf, List.append_nil] at hdigits
  refine isNumber_of_text_eq ?_ fun depth rest hrest ↦ ?_
  · have hlength : 1 - (Nat.toDigits 10 d.coefficient.natAbs).length = 0 :=
      Nat.sub_eq_zero_of_le Nat.length_toDigits_pos
    simp only [JsonNumber.text, toText, digits, hs, Nat.zero_add, hlength, if_true,
      Nat.toString_eq_ofList_toDigits]
    split
    · simp
    · simp
  · have hnumber : JsonNumber.ofDigits? (n.sign == .minus) (appendDigits 0 n.whole) =
        some (.integer d.coefficient) := by
      rw [hsign, hdigits, ofDigits?_coefficient hlow hhigh]
    rw [htext, String.toList_ofList]
    exact hn.value_eq depth (hn.read_whole _ hf hnumber hrest)

section Fraction

variable (hfits : d.coefficient.natAbs < JsonNumber.bound)
  (hm : Significand.number ⟨d.coefficient.natAbs, -d.scale⟩ (d.sign == .minus) = .ok m)

include hfits hm

/-- The text of a fraction is read as the number that its digits make. -/
theorem value_toText_of_number (hs : 0 < d.scale) (depth : ℕ) {rest : List Char}
    (hrest : JsonNumber.Ends rest) :
    Json.value depth (d.toText.toList ++ rest) = .ok (.number m, rest) := by
  obtain ⟨n, htext, hn, hsign, hdigits, hscale⟩ := d.exists_jsonNumeral
  have hf : n.fraction ≠ [] := by
    rw [← List.length_pos_iff]
    omega
  rw [htext, String.toList_ofList]
  refine hn.value_fraction hf (hdigits ▸ hfits) ?_ depth hrest
  rw [Numeral.significand, hdigits, hscale, hsign]
  exact hm

/-- It is enough as well that the number has a text with an exponent. -/
theorem isNumber_of_exponent (hs : 0 < d.scale) {n : Numeral} {ks : List (Fin 10)} (hks : ks ≠ [])
    (htext : m.text = String.ofList (n.chars ++ 'e' :: '-' :: digitChars ks)) (hn : n.IsJson)
    (hsign : n.sign = d.sign)
    (hdigits : appendDigits 0 (n.whole ++ n.fraction) = d.coefficient.natAbs)
    (hscale : n.fraction.length + appendDigits 0 ks = d.scale) : d.IsNumber m := by
  refine ⟨fun depth rest ↦ value_toText_of_number hfits hm hs depth, fun depth rest hrest ↦ ?_, ?_⟩
  · have hexp : (-n.fraction.length - appendDigits 0 ks : ℤ) = -d.scale := by
      omega
    rw [htext, String.toList_ofList]
    refine hn.value_exponent hks (hdigits ▸ hfits) ?_ depth hrest
    simp only [Numeral.significand, hdigits, hexp, hsign]
    exact hm
  · rw [htext]
    exact ofText_exponent hks hsign hdigits hscale

end Fraction

/-- **A fraction of fifteen digits is a double in JSON**, whose text says the same number.  That
text is plain notation or has an exponent, and in both cases it has the digits of the
coefficient. -/
theorem exists_isNumber_double (hten : d.coefficient % 10 ≠ 0) (hs₀ : 0 < d.scale)
    (hs : d.scale ≤ 22) (hc : d.coefficient.natAbs < 10 ^ 15) : ∃ m, d.IsNumber m := by
  obtain ⟨x, hx, hx₀, hshortest⟩ :=
    Double.exists_shortest (c := d.coefficient.natAbs) (by omega) hc hs₀ hs
  have hfits : d.coefficient.natAbs < JsonNumber.bound := hc.trans (by decide)
  have hnumber := JsonNumber.number_of_ofScientific (s := ⟨d.coefficient.natAbs, -d.scale⟩) hx
    (d.sign == .minus)
  have htext := Double.text_of_shortest d hx₀ hshortest
  have hlength : (Double.digitsOf d.coefficient.natAbs).length ≤ 15 :=
    (Nat.length_toDigits_le_iff (by decide) (by decide)).2 hc
  generalize hl : (-d.scale + (Double.digitsOf d.coefficient.natAbs).length - 1 : ℤ) = l at htext
  refine ⟨.double (d.sign == .minus) x, ?_⟩
  by_cases hplace : -5 ≤ l ∧ l ≤ 15
  · refine isNumber_of_text_eq ?_ fun depth rest ↦ value_toText_of_number hfits hnumber hs₀ depth
    rw [htext, if_pos hplace, Double.toText_eq_positional hs₀, neg_add_eq_sub]
  · obtain ⟨ds, hmore, hds, hdigits⟩ := exists_toDigits_ne_nil d.coefficient.natAbs
    obtain ⟨a, more, rfl⟩ := List.exists_cons_of_ne_nil hds
    obtain ⟨ks, hks, hks₀, hk⟩ := exists_toDigits_ne_nil l.natAbs
    have hmore' : (Double.digitsOf d.coefficient.natAbs).length = more.length + 1 := by
      rw [Double.digitsOf, hmore, length_digitChars, List.length_cons]
    refine isNumber_of_exponent (n := ⟨d.sign, [a], more, List.cons_ne_nil _ _⟩) hfits hnumber hs₀
      hks₀ ?_ ⟨d.sign_ne_plus, .inl rfl⟩ rfl hdigits ?_
    · rw [htext, if_neg hplace, Double.digitsOf, hmore,
        Double.withExponent_digitChars a more d.sign (by omega), Double.digitsOf, hks,
        ← List.append_assoc]
      rfl
    · show more.length + _ = _
      omega

/-! ## Values -/

/-- Decimals that JSON keeps: whole numbers of 64 bits, and numbers of fifteen digits with at most
22 places. -/
def FitsJson (d : Decimal) : Prop :=
  d.scale = 0 ∧ -2 ^ 63 ≤ d.coefficient ∧ d.coefficient < 2 ^ 64 ∨
    d.scale ≤ 22 ∧ d.coefficient.natAbs < 10 ^ 15

instance (d : Decimal) : Decidable d.FitsJson := inferInstanceAs (Decidable (_ ∨ _))

/-- Each of the two kinds of decimals is some JSON number. -/
theorem exists_isNumber (h : d.FitsJson) (hnormal : d.scale = 0 ∨ d.coefficient % 10 ≠ 0) :
    ∃ m, d.IsNumber m := by
  rcases Nat.eq_zero_or_pos d.scale with hs | hs
  · refine ⟨_, isNumber_integer hs ?_ ?_⟩
    · rcases h with h | h <;> omega
    · rcases h with h | h <;> omega
  · rcases h with h | h
    · omega
    · exact exists_isNumber_double (hnormal.resolve_left hs.ne') hs h.1 h.2

end Decimal

namespace Value

/-- Values that JSON keeps: all but some numbers. -/
def FitsJson : Value → Prop
  | number n => n.normalize.FitsJson
  | boolean _ => True
  | string _ => True

/-- **A value that fits is read back from its JSON text.**  A number comes back in its normal form,
so it is alike and need not be the same. -/
theorem exists_value_toJson {v : Value} (h : v.FitsJson) :
    ∃ j w, (∀ depth rest, JsonNumber.Ends rest →
      Json.value depth (v.toJson.compact.toList ++ rest) = .ok (j, rest)) ∧
        ofJson j = .ok w ∧ v.alike w = true := by
  cases v with
  | boolean b =>
    exact ⟨_, .boolean b, fun depth rest _ ↦ Json.value_boolean depth b rest, rfl, by simp [alike]⟩
  | string s =>
    exact ⟨_, .string s, fun depth rest _ ↦ Json.value_string depth s rest, rfl, by simp [alike]⟩
  | number n =>
    obtain ⟨m, htoText, htext, hofText⟩ :=
      exists_isNumber h (dropZeros_done n.scale n.coefficient)
    have hnumber : (number n).toJson = .number m := by
      have hvalue := htoText Json.maxNesting [] (fun _ h ↦ by cases h)
      rw [List.append_nil] at hvalue
      have hparse : Json.parse n.normalize.toText = .ok (.number m) := by
        rw [Json.parse, hvalue]
        rfl
      simp only [toJson, JsonNumber.ofText?, hparse]
    refine ⟨.number m, .number n.normalize, fun depth rest hrest ↦ ?_, ?_, ?_⟩
    · rw [hnumber]
      exact htext depth rest hrest
    · rw [ofJson, hofText]
    · exact (sameValue_iff _ _).2 n.normalize_value.symm

end Value

namespace Bindings

/-- **Values survive JSON, if they fit.**  The object that binds a key to the JSON value of a value
is read without an error, and the key is then bound to that value, whose number may have another
scale. -/
theorem resolved_of_fitsJson (key : String) (strict : Bool) (v : Value) (h : v.FitsJson) :
    ∃ j b w, Json.parse (Json.object [(key, v.toJson)]).compact = .ok j ∧
      ofJson strict j = .ok b ∧ (∀ ref : VarRef, ref.key = key → b.context ref = .resolved w) ∧
        v.alike w = true := by
  obtain ⟨j, w, hvalue, hw, halike⟩ := Value.exists_value_toJson h
  have hends : JsonNumber.Ends ['\x7d'] := by
    rintro c ⟨⟩
    decide
  refine ⟨_, (empty strict).insert key w, w, Json.parse_object key (hvalue 126 _ hends), ?_, ?_,
    halike⟩
  · rw [ofJson, insertMembers, hw]
    rfl
  · rintro ref rfl
    rw [context, insert, Dictionary.find?_insert_self]

/-- Fifteen digits behind five zeros, which JSON writes with an exponent. -/
theorem resolved_of_fitsJson_fraction :
    ∃ j b w, Json.parse (Json.object [("K", Value.toJson
        (.number ⟨-123456789012345, 20, by decide, by decide⟩))]).compact = .ok j ∧
      ofJson true j = .ok b ∧ (∀ ref : VarRef, ref.key = "K" → b.context ref = .resolved w) ∧
        (Value.number ⟨-123456789012345, 20, by decide, by decide⟩).alike w = true :=
  resolved_of_fitsJson "K" true _ (show Decimal.FitsJson _ by decide)

/-- Not every value fits: the largest decimal becomes a double, whose text is out of range. -/
theorem not_resolved_of_value : ¬∀ (key : String) (strict : Bool) (v : Value),
    ∃ j b w, Json.parse (Json.object [(key, v.toJson)]).compact = .ok j ∧
      ofJson strict j = .ok b ∧ (∀ ref : VarRef, ref.key = key → b.context ref = .resolved w) ∧
        v.alike w = true := by
  intro h
  obtain ⟨j, b, w, hj, hb, -⟩ := h "K" false (.number .max)
  have hfails : (match Json.parse (Json.object [("K", (Value.number .max).toJson)]).compact with
      | .ok j => (ofJson false j).isOk
      | .error _ => false) = false := by decide +kernel
  rw [hj] at hfails
  simp only [hb] at hfails
  cases hfails

end Bindings

end RequestCondition

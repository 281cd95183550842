import Mathlib.Data.List.Basic
import Mathlib.Tactic.SplitIfs
import Mathlib.Tactic.Tauto
import RequestCondition.Function.Builtin
import RequestCondition.Proofs.Text.Bytes

/-!
# Coding and decoding

A text in which every percent sign has its two digits is a row of pieces: single characters, and
triplets of a percent sign and two digits.  There is always a way to cut it into its pieces
(`exists_pieces`) and never a second one (`pieces_injective`).

Decoding turns a triplet into its byte and a single character into its own bytes (`decode_pieces`).
Coding writes every byte as the one piece that is canonical for it.  So decoding undoes coding, and
coding undoes decoding where all pieces are canonical to begin with.  The last theorem also says
what `unescape` makes of a text that nobody need have coded.

The program does not cut a text into characters, let alone pieces.  It goes through the bytes: once
to see that every percent sign has its digits, and once more to decode.  Both are brought back to
pieces, since a percent sign and a digit are bytes that no other character has in it
(`lacksDigits_piece`, `decode_piece`).

The bytes that are left need not be the UTF-8 form of a text, even if every percent sign has its
digits.  Then there is no text to answer with.  So `unescape_of_pieces` is about the bytes: the
answer is the text that has them, if there is one.
-/

set_option autoImplicit false

namespace RequestCondition

namespace Percent

variable {c : Char} {cs : List Char} {n : ℕ} {bs rest : List UInt8}

/-! ## Digits and plain characters

A digit is kept together with the character it is written as, since both cases are read and one is
written. -/

/-- A hexadecimal digit, in lower or upper case. -/
@[ext] structure HexDigit where
  value : Fin 16
  char : Char
  char_eq : char = value.val.digitChar ∨ char = value.val.digitChar.toUpper

/-- A letter, a digit or one of the five signs. -/
def Unreserved (c : Char) : Prop := c.isAlphanum = true ∨ c ∈ ['-', '_', '.', '~', '/']

instance : DecidablePred Unreserved := fun _ ↦ inferInstanceAs (Decidable (_ ∨ _))

theorem toNat_charOfByte (b : UInt8) : (Char.ofNat b.toNat).toNat = b.toNat := by
  have hlt := b.toNat_lt
  exact toNat_ofNat_of_isValidChar (.inl (by omega))

/-- The reader of digits knows them in both cases. -/
theorem hexValue?_eq_some_iff :
    hexValue? c = some n ↔ ∃ d : HexDigit, d.char = c ∧ d.value = n := by
  constructor
  · intro h
    have hlt : c.toNat < 0x80 := by
      simp only [hexValue?, char_le_iff, Char.reduceToNat] at h
      split_ifs at h <;> omega
    obtain ⟨k, rfl⟩ := exists_fin_of_toNat_lt hlt
    have hdigit : ∀ k : Fin 0x80, ∀ n ∈ hexValue? (Char.ofNat k), ∃ h : n < 16,
        Char.ofNat k = n.digitChar ∨ Char.ofNat k = n.digitChar.toUpper := by
      decide
    obtain ⟨hn, hchar⟩ := hdigit k n h
    exact ⟨⟨⟨n, hn⟩, _, hchar⟩, rfl, rfl⟩
  · rintro ⟨⟨value, char, rfl | rfl⟩, rfl, rfl⟩ <;> revert value <;> decide

namespace HexDigit

variable (d : HexDigit)

theorem hexValue?_char : hexValue? d.char = some d.value.val :=
  hexValue?_eq_some_iff.2 ⟨d, rfl, rfl⟩

/-- The character tells which digit it is. -/
theorem char_injective : Function.Injective char := by
  intro d e h
  have hvalue := d.hexValue?_char
  rw [h, e.hexValue?_char] at hvalue
  exact HexDigit.ext (Fin.ext (Option.some.inj hvalue).symm) h

theorem char_bounds : d.char.toNat < 0x80 ∧ d.char ≠ '%' := by
  obtain ⟨value, char, rfl | rfl⟩ := d <;> revert value <;> decide

/-- The digit as a byte. -/
def byte : UInt8 := UInt8.ofNat d.char.toNat

theorem utf8EncodeChar_char : String.utf8EncodeChar d.char = [d.byte] :=
  utf8EncodeChar_of_lt d.char_bounds.1

theorem byte_toNat : d.byte.toNat = d.char.toNat := toNat_ofNat_toNat_of_lt d.char_bounds.1

@[simp] theorem digit?_byte : digit? d.byte = some d.value.val := by
  rw [digit?, byte_toNat, Char.ofNat_toNat, hexValue?_char]

@[simp] theorem byte_beq_sign : (d.byte == sign) = false := by
  refine beq_false_of_ne ?_
  intro h
  have hsome := d.digit?_byte
  rw [h, show digit? sign = none from by decide] at hsome
  cases hsome

/-- A text that begins with the byte of a digit begins with the digit. -/
theorem eq_cons_of_utf8Bytes_eq_cons (h : utf8Bytes cs = d.byte :: bs) :
    ∃ ds, cs = d.char :: ds ∧ bs = utf8Bytes ds := by
  have hlt : d.byte.toNat < 0x80 := d.byte_toNat ▸ d.char_bounds.1
  obtain ⟨c, ds, rfl, hc, rfl⟩ := RequestCondition.eq_cons_of_utf8Bytes_eq_cons h hlt
  rw [byte_toNat, Char.toNat_inj] at hc
  exact ⟨ds, by rw [hc], rfl⟩

/-- The digit of a value in upper case. -/
def upper (value : Fin 16) : HexDigit := ⟨value, value.val.digitChar.toUpper, .inr rfl⟩

/-- The digit is in upper case. -/
def IsUpper : Prop := d.char = d.value.val.digitChar.toUpper

variable {d} in
theorem IsUpper.eq_upper (h : d.IsUpper) : d = upper d.value := char_injective h

/-- The first of the two digits that a byte is written with. -/
def high (b : UInt8) : HexDigit :=
  upper ⟨b.toNat / 16, Nat.div_lt_of_lt_mul b.toNat_lt⟩

/-- The second one. -/
def low (b : UInt8) : HexDigit := upper ⟨b.toNat % 16, Nat.mod_lt _ (by decide)⟩

theorem upper_char (value : Fin 16) : (upper value).char = hexDigit value := by
  revert value
  decide

end HexDigit

theorem exists_byte_eq_of_digit? {b : UInt8} (h : (digit? b).isSome = true) :
    ∃ d : HexDigit, d.byte = b := by
  obtain ⟨n, hn⟩ := Option.isSome_iff_exists.1 h
  obtain ⟨d, hd, -⟩ := hexValue?_eq_some_iff.1 hn
  refine ⟨d, UInt8.toNat_inj.1 ?_⟩
  rw [d.byte_toNat, hd, toNat_charOfByte]

theorem isAlphanum_iff :
    c.isAlphanum = true ↔ (('A' ≤ c ∧ c ≤ 'Z') ∨ 'a' ≤ c ∧ c ≤ 'z') ∨ '0' ≤ c ∧ c ≤ '9' := by
  have hupper : c.isUpper = true ↔ 'A' ≤ c ∧ c ≤ 'Z' := decide_eq_true_iff
  have hlower : c.isLower = true ↔ 'a' ≤ c ∧ c ≤ 'z' :=
    Bool.and_eq_true_iff.trans (and_congr decide_eq_true_iff decide_eq_true_iff)
  have hdigit : c.isDigit = true ↔ '0' ≤ c ∧ c ≤ '9' :=
    Bool.and_eq_true_iff.trans (and_congr decide_eq_true_iff decide_eq_true_iff)
  show (c.isUpper || c.isLower || c.isDigit) = true ↔ _
  rw [Bool.or_eq_true, Bool.or_eq_true, hupper, hlower, hdigit]

theorem isPlain_iff : isPlain c = true ↔ Unreserved c := by
  simp only [isPlain, Unreserved, isAlphanum_iff, Bool.or_eq_true, Bool.and_eq_true,
    decide_eq_true_eq, beq_iff_eq, List.mem_cons, List.not_mem_nil, or_false]
  tauto

/-! ## Pieces

A piece shows by its first character which kind it is of, and its kind says how long it is. -/

/-- A piece of a coded text: a character that is no percent sign, or the code of a byte. -/
inductive Piece where
  | single (c : Char) (ne_sign : c ≠ '%')
  | triplet (x y : HexDigit)

namespace Piece

/-- The characters of a piece. -/
def chars : Piece → List Char
  | single c _ => [c]
  | triplet x y => ['%', x.char, y.char]

/-- What a triplet stands for. -/
def code (x y : HexDigit) : ℕ := 16 * x.value + y.value

/-- The bytes of a piece, where a triplet is replaced by what it stands for. -/
def bytes : Piece → List UInt8
  | single c _ => String.utf8EncodeChar c
  | triplet x y => [UInt8.ofNat (code x y)]

/-- The piece is what coding would write: an unreserved character, or a triplet in upper case for a
byte that is none. -/
def IsCanonical : Piece → Prop
  | single c _ => Unreserved c
  | triplet x y => x.IsUpper ∧ y.IsUpper ∧ ¬Unreserved (Char.ofNat (code x y))

theorem code_lt (x y : HexDigit) : code x y < 256 := by
  have hx := x.value.isLt
  have hy := y.value.isLt
  rw [code]
  omega

theorem code_high_low (b : UInt8) : code (.high b) (.low b) = b.toNat := Nat.div_add_mod ..

/-- Pieces are told apart by how they begin, and a piece ends where it has to. -/
theorem eq_of_chars_append {p q : Piece} {cs ds : List Char} (h : p.chars ++ cs = q.chars ++ ds) :
    p = q ∧ cs = ds := by
  cases p with
  | single c hc =>
    cases q with
    | single d hd =>
      obtain ⟨rfl, rfl⟩ := List.cons.inj h
      exact ⟨rfl, rfl⟩
    | triplet x y => exact absurd (List.cons.inj h).1 hc
  | triplet x y =>
    cases q with
    | single d hd => exact absurd (List.cons.inj h).1.symm hd
    | triplet x' y' =>
      simp only [chars, List.cons_append, List.nil_append, List.cons.injEq, true_and] at h
      obtain ⟨hx, hy, rfl⟩ := h
      rw [HexDigit.char_injective hx, HexDigit.char_injective hy]
      exact ⟨rfl, rfl⟩

end Piece

open Piece

/-- There is only one way to cut a text into pieces. -/
theorem pieces_injective : Function.Injective (List.flatMap chars) := by
  intro ps
  induction ps with
  | nil =>
    intro qs h
    cases qs with
    | nil => rfl
    | cons q qs => cases q <;> cases h
  | cons p ps ih =>
    intro qs h
    cases qs with
    | nil => cases p <;> cases h
    | cons q qs =>
      obtain ⟨rfl, htail⟩ := eq_of_chars_append h
      rw [ih htail]

/-- Every percent sign of a text has two digits behind it. -/
def SignsHaveDigits (cs : List Char) : Prop :=
  ∀ before behind, cs = before ++ '%' :: behind →
    ∃ (x y : HexDigit) (rest : List Char), behind = x.char :: y.char :: rest

theorem signsHaveDigits_cons :
    SignsHaveDigits (c :: cs) ↔
      (c = '%' → ∃ (x y : HexDigit) (rest : List Char), cs = x.char :: y.char :: rest) ∧
        SignsHaveDigits cs := by
  constructor
  · intro h
    exact ⟨fun hc ↦ h [] cs (by rw [hc]; rfl), fun before behind hcs ↦
      h (c :: before) behind (by rw [hcs]; rfl)⟩
  · rintro ⟨hfirst, h⟩ before behind hcs
    cases before with
    | nil =>
      obtain ⟨hc, rfl⟩ := List.cons.inj hcs
      exact hfirst hc
    | cons b before => exact h before behind (List.cons.inj hcs).2

/-- Every such text can be cut into pieces. -/
theorem exists_pieces : ∀ cs : List Char, SignsHaveDigits cs →
    ∃ ps : List Piece, cs = ps.flatMap chars
  | [], _ => ⟨[], rfl⟩
  | c :: cs, h => by
    obtain ⟨hfirst, h⟩ := signsHaveDigits_cons.1 h
    by_cases hc : c = '%'
    · obtain ⟨x, y, rest, rfl⟩ := hfirst hc
      -- the digits are no signs, so no sign is passed over with them
      have hrest := (signsHaveDigits_cons.1 (signsHaveDigits_cons.1 h).2).2
      obtain ⟨ps, rfl⟩ := exists_pieces rest hrest
      exact ⟨triplet x y :: ps, by rw [hc]; rfl⟩
    · obtain ⟨ps, rfl⟩ := exists_pieces cs h
      exact ⟨single c hc :: ps, rfl⟩
termination_by cs => cs.length

/-! ## The scan and the decoder

Both stop at the byte of the percent sign and look at the two bytes behind it. -/

theorem utf8EncodeChar_sign : String.utf8EncodeChar '%' = [sign] := by decide

theorem sign_notMem_utf8EncodeChar (hc : c ≠ '%') : sign ∉ String.utf8EncodeChar c := by
  rcases Nat.lt_or_ge c.toNat 0x80 with h | h
  · rw [utf8EncodeChar_of_lt h, List.mem_singleton]
    intro hsign
    have htoNat := congrArg UInt8.toNat hsign
    rw [toNat_ofNat_toNat_of_lt h] at htoNat
    exact hc (Char.toNat_inj.1 htoNat.symm)
  · intro hmem
    exact absurd (le_of_mem_utf8EncodeChar h hmem) (by decide)

/-- The scan passes over bytes without a percent sign. -/
theorem lacksDigits_append (h : sign ∉ bs) : lacksDigits (bs ++ rest) = lacksDigits rest := by
  induction bs with
  | nil => rfl
  | cons b bs ih =>
    obtain ⟨hb, h⟩ := List.ne_and_not_mem_of_not_mem_cons h
    simp [lacksDigits, ih h, Ne.symm hb]

/-- The decoder copies them. -/
theorem decode_append (h : sign ∉ bs) : decode (bs ++ rest) = bs ++ decode rest := by
  induction bs with
  | nil => rfl
  | cons b bs ih =>
    obtain ⟨hb, h⟩ := List.ne_and_not_mem_of_not_mem_cons h
    rw [List.cons_append, List.cons_append, ← ih h]
    -- the decoder looks two bytes ahead, whatever it finds behind `b`
    rcases hbs : bs ++ rest with _ | ⟨x, _ | ⟨y, behind⟩⟩
    · rfl
    · rfl
    · rw [decode, if_neg (Ne.symm hb)]

/-- Two bytes of digits at the front are two digits. -/
theorem startsWithDigits_utf8Bytes :
    startsWithDigits (utf8Bytes cs) = true ↔
      ∃ (x y : HexDigit) (rest : List Char), cs = x.char :: y.char :: rest := by
  constructor
  · intro h
    rcases hcs : utf8Bytes cs with _ | ⟨a, _ | ⟨b, bs⟩⟩ <;> rw [hcs] at h
    · cases h
    · cases h
    · obtain ⟨ha, hb⟩ := Bool.and_eq_true_iff.1 h
      obtain ⟨x, rfl⟩ := exists_byte_eq_of_digit? ha
      obtain ⟨y, rfl⟩ := exists_byte_eq_of_digit? hb
      obtain ⟨ds, rfl, hds⟩ := x.eq_cons_of_utf8Bytes_eq_cons hcs
      obtain ⟨rest, rfl, -⟩ := y.eq_cons_of_utf8Bytes_eq_cons hds.symm
      exact ⟨x, y, rest, rfl⟩
  · rintro ⟨x, y, rest, rfl⟩
    simp [startsWithDigits, HexDigit.utf8EncodeChar_char]

/-- The scan over the bytes finds what there is to find in the text. -/
theorem lacksDigits_utf8Bytes_eq_false_iff :
    lacksDigits (utf8Bytes cs) = false ↔ SignsHaveDigits cs := by
  induction cs with
  | nil => simp [lacksDigits, SignsHaveDigits]
  | cons c cs ih =>
    rw [signsHaveDigits_cons, ← ih, utf8Bytes_cons]
    by_cases hc : c = '%'
    · rw [hc, utf8EncodeChar_sign, List.singleton_append, lacksDigits]
      simp [startsWithDigits_utf8Bytes]
    · simp [lacksDigits_append (sign_notMem_utf8EncodeChar hc), hc]

variable {p : Piece} {ps : List Piece}

theorem utf8Bytes_triplet (x y : HexDigit) :
    utf8Bytes (triplet x y).chars = [sign, x.byte, y.byte] := by
  simp [chars, utf8EncodeChar_sign, HexDigit.utf8EncodeChar_char]

theorem lacksDigits_piece : lacksDigits (utf8Bytes p.chars ++ rest) = lacksDigits rest := by
  cases p with
  | single c hc => simp [chars, lacksDigits_append (sign_notMem_utf8EncodeChar hc)]
  | triplet x y =>
    have hdigits : startsWithDigits (x.byte :: y.byte :: rest) = true := by
      simp [startsWithDigits]
    simp [utf8Bytes_triplet, lacksDigits, hdigits]

/-- The decoder turns a piece into its bytes. -/
theorem decode_piece : decode (utf8Bytes p.chars ++ rest) = p.bytes ++ decode rest := by
  cases p with
  | single c hc => simp [chars, bytes, decode_append (sign_notMem_utf8EncodeChar hc)]
  | triplet x y => simp [utf8Bytes_triplet, bytes, code, decode]

theorem lacksDigits_pieces : lacksDigits (utf8Bytes (ps.flatMap chars)) = false := by
  induction ps with
  | nil => rfl
  | cons p ps ih => rw [List.flatMap_cons, utf8Bytes_append, lacksDigits_piece, ih]

/-- Decoding replaces every triplet by its byte. -/
theorem decode_pieces : decode (utf8Bytes (ps.flatMap chars)) = ps.flatMap bytes := by
  induction ps with
  | nil => rfl
  | cons p ps ih =>
    rw [List.flatMap_cons, utf8Bytes_append, decode_piece, ih, List.flatMap_cons]

/-! ## Coding

Coding goes through the bytes of a text, and an unreserved character is the only one with its byte.
So a piece is written for each byte, and it is canonical. -/

theorem Unreserved.bounds (h : Unreserved c) : c.toNat < 0x80 ∧ c ≠ '%' := by
  constructor
  · rcases h with h | h
    · simp only [isAlphanum_iff, char_le_iff, Char.reduceToNat] at h
      omega
    · simp only [List.mem_cons, List.not_mem_nil, or_false] at h
      rcases h with rfl | rfl | rfl | rfl | rfl <;> decide
  · rintro rfl
    revert h
    decide

/-- The piece that coding writes for a byte. -/
def Piece.ofByte (b : UInt8) : Piece :=
  if h : Unreserved (Char.ofNat b.toNat) then single (Char.ofNat b.toNat) h.bounds.2
  else triplet (.high b) (.low b)

theorem chars_ofByte (b : UInt8) : (ofByte b).chars = encodeByte b := by
  rw [ofByte, encodeByte]
  by_cases h : Unreserved (Char.ofNat b.toNat)
  · rw [dif_pos h, if_pos (isPlain_iff.2 h), chars]
  · rw [dif_neg h, if_neg (isPlain_iff.not.2 h), chars, HexDigit.high, HexDigit.low,
      HexDigit.upper_char, HexDigit.upper_char]

theorem bytes_ofByte (b : UInt8) : (ofByte b).bytes = [b] := by
  rw [ofByte]
  split_ifs with h
  · rw [bytes, utf8EncodeChar_of_lt h.bounds.1, toNat_charOfByte, UInt8.ofNat_toNat]
  · rw [bytes, code_high_low, UInt8.ofNat_toNat]

theorem isCanonical_ofByte (b : UInt8) : (ofByte b).IsCanonical := by
  rw [ofByte]
  split_ifs with h
  · exact h
  · refine ⟨rfl, rfl, ?_⟩
    rwa [code_high_low]

/-- The canonical piece of a byte is the only one. -/
theorem Piece.IsCanonical.map_ofByte (h : p.IsCanonical) : p.bytes.map ofByte = [p] := by
  cases p with
  | single c hc =>
    have hplain : Unreserved c := h
    have hlt := hplain.bounds.1
    rw [bytes, utf8EncodeChar_of_lt hlt, List.map_singleton]
    simp only [ofByte, toNat_ofNat_toNat_of_lt hlt, Char.ofNat_toNat, dif_pos hplain]
  | triplet x y =>
    obtain ⟨hx, hy, hcode⟩ := h
    have hb : (UInt8.ofNat (code x y)).toNat = code x y := by
      rw [UInt8.toNat_ofNat', Nat.mod_eq_of_lt (code_lt x y)]
    have hhigh : HexDigit.high (UInt8.ofNat (code x y)) = x := by
      rw [hx.eq_upper, HexDigit.high]
      refine congrArg HexDigit.upper (Fin.ext ?_)
      show (UInt8.ofNat (code x y)).toNat / 16 = x.value
      rw [hb, code]
      omega
    have hlow : HexDigit.low (UInt8.ofNat (code x y)) = y := by
      rw [hy.eq_upper, HexDigit.low]
      refine congrArg HexDigit.upper (Fin.ext ?_)
      show (UInt8.ofNat (code x y)).toNat % 16 = y.value
      rw [hb, code]
      omega
    rw [bytes, List.map_singleton]
    simp only [ofByte, hb, dif_neg hcode, hhigh, hlow]

/-- Coding writes a text as canonical pieces. -/
theorem toList_encode (s : String) :
    (encode s).toList = ((utf8Bytes s.toList).map ofByte).flatMap chars := by
  rw [encode, String.toList_ofList, List.flatMap_map]
  exact List.flatMap_congr fun b _ ↦ (chars_ofByte b).symm

end Percent

namespace Builtin

open Percent Percent.Piece

variable {s e t : String} {ps : List Piece}

/-- What `unescape` makes of a text that is cut into pieces. -/
theorem unescape_of_pieces (he : e.toList = ps.flatMap chars) :
    unescape e = .ok (.string t) ↔ ps.flatMap bytes = utf8Bytes t.toList := by
  rw [← textOfBytes?_eq_some_iff, unescape, he, lacksDigits_pieces, decode_pieces,
    if_neg Bool.false_ne_true]
  cases textOfBytes? (ps.flatMap bytes) <;> simp

/-- What is not rejected has all its digits. -/
theorem signsHaveDigits_of_unescape (h : unescape e = .ok (.string t)) :
    SignsHaveDigits e.toList := by
  rw [← lacksDigits_utf8Bytes_eq_false_iff]
  rw [unescape] at h
  split_ifs at h with hlacks
  exact eq_false_of_ne_true hlacks

theorem unescape_encode (s : String) : unescape (encode s) = .ok (.string s) := by
  rw [unescape_of_pieces (toList_encode s), List.flatMap_map]
  simp [bytes_ofByte]

/-- Coding undoes decoding exactly where all pieces are canonical. -/
theorem encode_eq_iff (he : e.toList = ps.flatMap chars)
    (ht : ps.flatMap bytes = utf8Bytes t.toList) :
    encode t = e ↔ ∀ p ∈ ps, p.IsCanonical := by
  rw [← String.toList_inj, toList_encode, he, pieces_injective.eq_iff, ← ht]
  constructor
  · intro h p hp
    rw [← h] at hp
    obtain ⟨b, -, rfl⟩ := List.mem_map.1 hp
    exact isCanonical_ofByte b
  · intro h
    rw [List.map_flatMap, List.flatMap_congr fun p hp ↦ (h p hp).map_ofByte]
    simp

/-- **Coding and decoding are inverse.**  A coded text is a row of canonical pieces, and decoding it
gives the text back.  Of any text, `unescape` makes the one whose bytes are what is left when every
triplet is replaced by its byte, and it makes one only if every percent sign has its digits; coding
that one again gives the same text exactly if the pieces that the text is cut into, which there is
only one way to do, are canonical. -/
theorem escape_unescape (s e t : String) :
    (∃ ps : List Piece, (encode s).toList = ps.flatMap chars ∧ ∀ p ∈ ps, p.IsCanonical) ∧
    unescape (encode s) = .ok (.string s) ∧
    (unescape e = .ok (.string t) ↔ SignsHaveDigits e.toList ∧
      ∃ ps : List Piece, e.toList = ps.flatMap chars ∧ ps.flatMap bytes = utf8Bytes t.toList) ∧
    ∀ ps : List Piece, e.toList = ps.flatMap chars → unescape e = .ok (.string t) →
      (encode t = e ↔ ∀ p ∈ ps, p.IsCanonical) := by
  refine ⟨⟨_, toList_encode s, ?_⟩, unescape_encode s, ⟨?_, ?_⟩, ?_⟩
  · intro p hp
    obtain ⟨b, -, rfl⟩ := List.mem_map.1 hp
    exact isCanonical_ofByte b
  · intro h
    have hsigns := signsHaveDigits_of_unescape h
    obtain ⟨ps, he⟩ := exists_pieces _ hsigns
    exact ⟨hsigns, ps, he, (unescape_of_pieces he).1 h⟩
  · rintro ⟨-, ps, he, ht⟩
    exact (unescape_of_pieces he).2 ht
  · intro ps he h
    exact encode_eq_iff he ((unescape_of_pieces he).1 h)

/-- A triplet may be in lower case, but coding does not write it so. -/
theorem escape_unescape_lower_case :
    unescape "%c3%a9" = .ok (.string "é") ∧ encode "é" ≠ "%c3%a9" := by
  obtain ⟨-, -, hunescape, hsame⟩ := escape_unescape "é" "%c3%a9" "é"
  let ps : List Piece := [.triplet ⟨12, 'c', by decide⟩ ⟨3, '3', by decide⟩,
    .triplet ⟨10, 'a', by decide⟩ ⟨9, '9', by decide⟩]
  have hps : "%c3%a9".toList = ps.flatMap chars := by decide
  have hsigns : SignsHaveDigits "%c3%a9".toList :=
    lacksDigits_utf8Bytes_eq_false_iff.1 (by decide)
  have h : unescape "%c3%a9" = .ok (.string "é") := hunescape.2 ⟨hsigns, ps, hps, by decide⟩
  refine ⟨h, fun heq ↦ ?_⟩
  have hupper := ((hsame ps hps h).1 heq (.triplet _ _) List.mem_cons_self).1
  exact absurd hupper (by unfold HexDigit.IsUpper; decide)

end Builtin

end RequestCondition

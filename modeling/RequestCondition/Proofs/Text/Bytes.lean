import Mathlib.Order.Basic
import RequestCondition.Text.Percent

/-!
# Texts and their bytes

A text and its UTF-8 form determine each other: two texts with the same bytes are the same text, and
`textOfBytes?` finds the text again wherever there is one.  A character of ASCII is one byte, its
code point; every other character is written in bytes that no character of ASCII has, so a search
for a sign of ASCII may look at the bytes instead of the characters.

The program works on bytes in two places.  Texts are ordered by them, and percent signs are decoded
in them.  In both it is wanted in the end what happens to the characters, and the lemmas here are
the way from one to the other.
-/

set_option autoImplicit false

namespace RequestCondition

variable {cs ds : List Char} {s t : String} {c : Char}

/-! ## The text of bytes -/

theorem toByteArray_utf8Bytes (cs : List Char) :
    (utf8Bytes cs).toByteArray = (String.ofList cs).toByteArray := by
  rw [String.toByteArray_ofList]
  rfl

/-- Different texts have different bytes. -/
@[simp] theorem utf8Bytes_inj : utf8Bytes cs = utf8Bytes ds ↔ cs = ds := by
  constructor
  · intro h
    have hbytes := congrArg List.toByteArray h
    rw [toByteArray_utf8Bytes, toByteArray_utf8Bytes, String.toByteArray_inj] at hbytes
    exact String.ofList_injective hbytes
  · rintro rfl
    rfl

/-- **The text of bytes** is the one that they are the UTF-8 form of. -/
theorem textOfBytes?_eq_some_iff {bytes : List UInt8} :
    textOfBytes? bytes = some t ↔ bytes = utf8Bytes t.toList := by
  rw [textOfBytes?, String.fromUTF8?]
  constructor
  · intro h
    obtain ⟨hvalid, h⟩ := Option.dite_none_right_eq_some.1 h
    rw [← List.toByteArray_inj, toByteArray_utf8Bytes, String.ofList_toList, ← Option.some.inj h]
    rfl
  · rintro rfl
    have hbytes : (utf8Bytes t.toList).toByteArray = t.toByteArray := by
      rw [toByteArray_utf8Bytes, String.ofList_toList]
    rw [dif_pos (hbytes ▸ t.isValidUTF8), Option.some_inj, ← String.toByteArray_inj]
    exact hbytes

theorem compareBytes_eq_eq_iff : compareBytes s t = .eq ↔ s = t := by
  rw [compareBytes, Std.LawfulEqCmp.compare_eq_iff_eq, utf8Bytes_inj, String.toList_inj]

theorem toNat_ofNat_of_isValidChar {n : ℕ} (h : n.isValidChar) : (Char.ofNat n).toNat = n := by
  rw [Char.ofNat, dif_pos h]
  rfl

/-! ## Characters of ASCII -/

/-- There are few of them, so a decidable property of them all can be checked. -/
theorem exists_fin_of_toNat_lt (h : c.toNat < 0x80) : ∃ k : Fin 0x80, c = Char.ofNat k :=
  ⟨⟨c.toNat, h⟩, (Char.ofNat_toNat c).symm⟩

theorem char_le_iff {a b : Char} : a ≤ b ↔ a.toNat ≤ b.toNat := Iff.rfl

theorem toNat_ofNat_toNat_of_lt (h : c.toNat < 0x80) : (UInt8.ofNat c.toNat).toNat = c.toNat := by
  rw [UInt8.toNat_ofNat', Nat.mod_eq_of_lt (by omega)]

/-- A character of ASCII is the byte of its code point. -/
theorem utf8EncodeChar_of_lt (h : c.toNat < 0x80) :
    String.utf8EncodeChar c = [UInt8.ofNat c.toNat] := by
  rw [String.utf8EncodeChar]
  exact if_pos (Nat.le_of_lt_succ h)

/-- The bytes of any other character are those that no character of ASCII has. -/
theorem le_of_mem_utf8EncodeChar (h : 0x80 ≤ c.toNat) {b : UInt8}
    (hb : b ∈ String.utf8EncodeChar c) : 0x80 ≤ b.toNat := by
  have hlarge : ¬c.val.toNat ≤ 0x7f := Nat.not_le.2 h
  rw [String.utf8EncodeChar, if_neg hlarge] at hb
  split_ifs at hb <;> simp only [List.mem_cons, List.not_mem_nil, or_false] at hb
  · rcases hb with rfl | rfl <;> simp <;> omega
  · rcases hb with rfl | rfl | rfl <;> simp <;> omega
  · rcases hb with rfl | rfl | rfl | rfl <;> simp <;> omega

/-- A byte of ASCII at the front of a text is its first character. -/
theorem eq_cons_of_utf8Bytes_eq_cons {b : UInt8} {bs : List UInt8} (h : utf8Bytes cs = b :: bs)
    (hb : b.toNat < 0x80) :
    ∃ c ds, cs = c :: ds ∧ c.toNat = b.toNat ∧ bs = utf8Bytes ds := by
  cases cs with
  | nil => simp at h
  | cons c ds =>
    rw [utf8Bytes_cons] at h
    rcases Nat.lt_or_ge c.toNat 0x80 with hc | hc
    · rw [utf8EncodeChar_of_lt hc] at h
      obtain ⟨rfl, rfl⟩ := List.cons.inj h
      exact ⟨c, ds, rfl, (toNat_ofNat_toNat_of_lt hc).symm, rfl⟩
    · obtain ⟨b', bs', hbs⟩ := List.exists_cons_of_ne_nil (String.utf8EncodeChar_ne_nil (c := c))
      have hle := le_of_mem_utf8EncodeChar hc (b := b') (by simp [hbs])
      rw [hbs] at h
      obtain ⟨rfl, -⟩ := List.cons.inj h
      omega

end RequestCondition

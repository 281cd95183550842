import Mathlib.Tactic.SplitIfs
import RequestCondition.Json.Printer
import RequestCondition.Json.Reader

/-!
# Reading back a string and an object of one member

What is written in quotes is read back as it is, whatever the characters: each of them is read back
from its own form (`textFrom_escaped`), hence the string (`text_quoted`).  So is an object of one
member, as far as its value is (`parse_object`).

The reader of strings counts its steps, and the number of characters that are left is enough for
them, since every step takes a character.  The reader of values counts how deep it is, and the value
of a member is one deeper than its object.
-/

set_option autoImplicit false

namespace RequestCondition

namespace Json

/-! ## Strings

A character has one of three forms: its own, a backslash and a sign, or a backslash and four digits
for a control character that has no sign. -/

variable {cs rest : List Char} {c : Char} {t : List Char} {steps : Nat}

theorem hexValue?_hexDigit {k : Nat} (hk : k < 16) : hexValue? (hexDigit k) = some k := by
  have hall : ∀ k : Fin 16, hexValue? (hexDigit k) = some k.val := by decide
  exact hall ⟨k, hk⟩

/-- Four digits are read as a number to the base sixteen. -/
theorem hexCode_digits {c₁ c₂ c₃ c₄ : Char} {d₁ d₂ d₃ d₄ : Nat} (h₁ : hexValue? c₁ = some d₁)
    (h₂ : hexValue? c₂ = some d₂) (h₃ : hexValue? c₃ = some d₃) (h₄ : hexValue? c₄ = some d₄)
    (cs : List Char) :
    hexCode (c₁ :: c₂ :: c₃ :: c₄ :: cs) = .ok (16 * (16 * (16 * d₁ + d₂) + d₃) + d₄, cs) := by
  have hlength : ¬utf8Length (c₁ :: c₂ :: c₃ :: c₄ :: cs) < 4 := by
    simp only [utf8Length_cons]
    have := c₁.utf8Size_pos
    have := c₂.utf8Size_pos
    have := c₃.utf8Size_pos
    have := c₄.utf8Size_pos
    omega
  rw [hexCode, if_neg hlength]
  simp [h₁, h₂, h₃, h₄]

/-- The code of a control character. -/
theorem codePoint_control (hc : c.toNat < 32) (cs : List Char) :
    codePoint ('0' :: '0' :: hexDigit (c.toNat / 16) :: hexDigit (c.toNat % 16) :: cs) =
      .ok (c, cs) := by
  have hzero : hexValue? '0' = some 0 := rfl
  have hcode := hexCode_digits hzero hzero (hexValue?_hexDigit (show c.toNat / 16 < 16 by omega))
    (hexValue?_hexDigit (Nat.mod_lt c.toNat (by decide))) cs
  have hsum : 16 * (16 * (16 * 0 + 0) + c.toNat / 16) + c.toNat % 16 = c.toNat := by omega
  have htrailing : isTrailing c.toNat = false := by
    simp only [isTrailing, Bool.and_eq_false_iff, decide_eq_false_iff_not]
    omega
  have hleading : isLeading c.toNat = false := by
    simp only [isLeading, Bool.and_eq_false_iff, decide_eq_false_iff_not]
    omega
  rw [hsum] at hcode
  rw [codePoint, hcode]
  show (if isTrailing c.toNat then _ else if !isLeading c.toNat then _ else _) = _
  rw [htrailing, hleading, Char.ofNat_toNat]
  rfl

/-- **A character is read back from its form.**  A quote, a backslash and five control characters
have escapes of their own; the other control characters have their codes, and the rest stand for
themselves. -/
theorem textFrom_escaped (h : textFrom steps cs = .ok (t, rest)) :
    textFrom (steps + 1) (escaped c ++ cs) = .ok (c :: t, rest) := by
  have hescape {d : Char} {ds : List Char} (hd : escape (d :: ds) = .ok (c, cs)) :
      textFrom (steps + 1) ('\\' :: d :: ds) = .ok (c :: t, rest) := by
    show (escape (d :: ds) >>= _) = _
    rw [hd]
    show (textFrom steps cs >>= _) = _
    rw [h]
    rfl
  unfold escaped
  split
  · next hc =>
    refine hescape ?_
    rcases hc with rfl | rfl <;> rfl
  split
  · next hc hprint =>
    rw [List.cons_append, List.nil_append, textFrom, if_neg (by simpa using hprint), h]
    · rfl
    · exact fun h ↦ hc (.inl h)
    · exact fun h ↦ hc (.inr h)
  split
  · next hc => exact hescape (by rw [hc]; rfl)
  split
  · next hc => exact hescape (by rw [hc]; rfl)
  split
  · next hc => exact hescape (by rw [hc]; rfl)
  split
  · next hc => exact hescape (by rw [hc]; rfl)
  split
  · next hc => exact hescape (by rw [hc]; rfl)
  · next hprint _ _ _ _ _ =>
    refine hescape ?_
    refine codePoint_control ?_ cs
    have hlt : c < ' ' := Char.not_le.1 hprint
    exact hlt

/-- No form is empty, so a string is not longer than what it is written as. -/
theorem length_le_escaped (cs : List Char) : cs.length ≤ (cs.flatMap escaped).length := by
  have hpos (c : Char) : 1 ≤ (escaped c).length := by
    unfold escaped
    split_ifs <;> exact Nat.le_add_left ..
  induction cs with
  | nil => exact Nat.le_refl 0
  | cons c cs ih =>
    rw [List.flatMap_cons, List.length_append, List.length_cons, Nat.add_comm]
    exact Nat.add_le_add (hpos c) ih

/-- By induction on the characters, up to the quote that ends the string. -/
theorem textFrom_quoted (cs rest : List Char) (hsteps : cs.length < steps) :
    textFrom steps (cs.flatMap escaped ++ '"' :: rest) = .ok (cs, rest) := by
  obtain ⟨steps, rfl⟩ : ∃ n, steps = n + 1 := ⟨steps - 1, by omega⟩
  induction cs generalizing steps with
  | nil => rfl
  | cons c cs ih =>
    rw [List.length_cons] at hsteps
    obtain ⟨steps, rfl⟩ : ∃ n, steps = n + 1 := ⟨steps - 1, by omega⟩
    rw [List.flatMap_cons, List.append_assoc]
    exact textFrom_escaped (ih steps (by omega))

/-- **A string is read back from its quotes.** -/
theorem text_quoted (s : String) (rest : List Char) :
    text (s.toList.flatMap escaped ++ '"' :: rest) = .ok (s, rest) := by
  have hsteps : s.toList.length < (s.toList.flatMap escaped ++ '"' :: rest).length + 1 := by
    have := length_le_escaped s.toList
    rw [List.length_append]
    omega
  rw [text, textFrom_quoted _ _ hsteps]
  show Except.ok (String.ofList s.toList, rest) = _
  rw [String.ofList_toList]

/-! ## Values

The first character of a value tells what it is. -/

/-- At every depth a value is read by its first character. -/
theorem value_eq (depth : Nat) : ∃ array object, value depth = valueWith array object := by
  cases depth with
  | zero => exact ⟨_, _, rfl⟩
  | succ depth => exact ⟨_, _, rfl⟩

theorem toList_quotedText (s : String) (rest : List Char) :
    (quotedText s).toList ++ rest = '"' :: (s.toList.flatMap escaped ++ '"' :: rest) := by
  simp [quotedText]

theorem value_string (depth : Nat) (s : String) (rest : List Char) :
    value depth ((string s).compact.toList ++ rest) = .ok (.string s, rest) := by
  obtain ⟨array, object, h⟩ := value_eq depth
  rw [h, compact, write, toList_quotedText]
  show (text _ >>= _) = _
  rw [text_quoted]
  rfl

theorem value_boolean (depth : Nat) (b : Bool) (rest : List Char) :
    value depth ((boolean b).compact.toList ++ rest) = .ok (.boolean b, rest) := by
  obtain ⟨array, object, h⟩ := value_eq depth
  rw [h]
  cases b <;> rfl

/-- How an object of one member is written. -/
theorem compact_object (key : String) (j : Json) :
    (object [(key, j)]).compact.toList = '\x7b' :: '"' ::
      (key.toList.flatMap escaped ++ '"' :: ':' :: (j.compact.toList ++ ['\x7d'])) := by
  have hcompact : (object [(key, j)]).compact =
      "\x7b" ++ (quotedText key ++ ":" ++ j.compact) ++ "\x7d" := by
    have hone (s : String) : ",".intercalate [s] = s := rfl
    simp [compact, write, writeMembers, Layout.enclose, Layout.lineStart, Layout.deeper,
      Layout.colon, hone]
  rw [hcompact]
  simp [quotedText]

/-- **An object of one member is read back**, if its value is. -/
theorem parse_object (key : String) {j j' : Json}
    (h : value 126 (j.compact.toList ++ ['\x7d']) = .ok (j', ['\x7d'])) :
    parse (object [(key, j)]).compact = .ok (.object [(key, j')]) := by
  have hmember : member (value 126)
      ('"' :: (key.toList.flatMap escaped ++ '"' :: ':' :: (j.compact.toList ++ ['\x7d']))) =
        .ok ((key, j'), ['\x7d']) := by
    rw [member, text_quoted]
    show (value 126 _ >>= _) = _
    rw [h]
    rfl
  rw [parse, compact_object]
  show (((items (member (value 126)) '\x7d' (_ + 1) _) >>= _) >>= _) = _
  rw [items, hmember]
  rfl

end Json

end RequestCondition

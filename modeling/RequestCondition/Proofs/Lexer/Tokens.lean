import RequestCondition.Proofs.Lexer.RegexLiteral
import RequestCondition.Proofs.Lexer.Template

/-!
# What tokens say

A token carries what stands in the source, and not everything can stand there.  A word of a
condition is an identifier only if it is no keyword, a dash and a word make a test unless they
compare numbers, and a group is a single digit.  `Token.Fits m t` says so of a token that is read in
the mode `m`, and `Lexer.fits_of_next` that it holds of every token that a lexer reads.

Text of a string is not empty, since it is read only where a character of it stands, and it goes on
until something else comes.  So no text follows it (`Lexer.text_apart`).  This is about two tokens,
and it needs that the second scan starts where the first one has ended: `stringText_drop_taken` says
that a run of text, cut off where it ends, leaves nothing of its kind behind.

The lemmas `modes_of_strBegin` and its companions are about the four tokens that turn.  With
`fits_of_stay` for the others they say what a lexer is like behind a token of a known kind, and this
is all that the normal form of trees asks of the lexer.
-/

set_option autoImplicit false

namespace RequestCondition

/-! ## Text of strings -/

/-- Where a run of text ends, no text stands. -/
theorem stringText_drop_taken {quote : Char} {cs : List Char}
    (h : (stringText quote cs).ending = .done) :
    stringText quote (cs.drop (stringText quote cs).taken) = ⟨[], .done, 0⟩ := by
  fun_induction stringText quote cs with
  | case1 => rfl
  | case2 c cs hstop => exact stringText_cons_eq_iff.2 hstop
  | case3 | case4 => cases h
  | case5 e cs x he run hstop ih => exact ih h
  | case6 c cs hstop hslash run ih => exact ih h

namespace Scan

variable {cs : List Char} {start : Nat}

/-- Where text of a string comes from: a run that has come to its end, and is taken as a whole. -/
theorem string_eq_strText {quote : Char} {opened : Nat} {text : String}
    (h : (string quote opened start cs).outcome = .ok (.strText text)) :
    text = String.ofList (stringText quote cs).text ∧ (stringText quote cs).ending = .done ∧
      (string quote opened start cs).taken = (stringText quote cs).taken := by
  cases cs with
  | nil => cases h
  | cons c cs =>
    rw [string] at h ⊢
    split at h
    · cases h
    next hquote =>
    split at h
    · cases h
    next hvar =>
    split at h
    · cases h
    next hgroup =>
    simp only at h
    split at h
    · next hend =>
      cases h
      simp [hquote, hvar, hgroup, hend]
    · cases h
    · cases h

end Scan

/-! ## Tokens that are read -/

namespace Lexer

variable {l l' : Lexer} {t : Token}

/-- **A token that is read says what it can say there.** -/
theorem fits_of_next (h : l.next = (.ok t, l')) (ht : t ≠ .eof) : t.Fits l.mode :=
  fits_of_scan (of_token h ht).1

/-- A token that opens and closes nothing leaves the mode. -/
theorem fits_of_stay {m : Mode} (hm : l.mode = m) (h : l.next = (.ok t, l')) (ht : t ≠ .eof)
    (hturns : t.turns = false) : t.Fits m ∧ l'.modes = l.modes ∧ l'.mode = m := by
  have hmodes := modes_of_token h ht hturns
  exact ⟨hm ▸ fits_of_next h ht, hmodes, by rw [mode, hmodes, ← mode, hm]⟩

/-! Tokens that open or close something. -/

/-- A quote opens a string on top of what is open. -/
theorem modes_of_strBegin (hm : l.mode = .normal) (h : l.next = (.ok .strBegin, l')) :
    ∃ quote opened, l'.modes = .string quote opened :: l.modes := by
  obtain ⟨hs, -, -, hmodes, -⟩ := of_token h (by decide)
  have hshift := scan_guided hs
  rw [hm] at hshift
  obtain ⟨quote, opened, heq⟩ := hshift.eq_enter_string
  rw [heq] at hmodes
  exact ⟨quote, opened, hmodes⟩

theorem modes_of_strEnd (h : l.next = (.ok .strEnd, l')) : l'.modes = l.modes.tail := by
  obtain ⟨hs, -, -, hmodes, -⟩ := of_token h (by decide)
  rw [hmodes, (scan_guided hs).eq_leave_string, Shift.apply]

/-- A brace behind a percent sign opens a reference on top of what is open. -/
theorem modes_of_varBegin (h : l.next = (.ok .varBegin, l')) :
    ∃ opened, l'.modes = .reference opened :: l.modes := by
  obtain ⟨hs, -, -, hmodes, -⟩ := of_token h (by decide)
  rw [(scan_guided hs).eq_enter] at hmodes
  exact ⟨_, hmodes⟩

theorem modes_of_varEnd (h : l.next = (.ok .varEnd, l')) : l'.modes = l.modes.tail := by
  obtain ⟨hs, -, -, hmodes, -⟩ := of_token h (by decide)
  rw [hmodes, (scan_guided hs).eq_leave, Shift.apply]

/-- **No text follows text of a string.**  A run of text is read as far as it goes, and what stops
it would stop the next one before its first character. -/
theorem text_apart {quote : Char} {opened : Nat} {text text' : String} {l'' : Lexer}
    (hm : l.mode = .string quote opened) (h : l.next = (.ok (.strText text), l')) :
    l'.next ≠ (.ok (.strText text'), l'') := by
  intro h'
  obtain ⟨hs, -, hr, -⟩ := of_token h (by simp)
  obtain ⟨hs', -⟩ := of_token h' (by simp)
  obtain ⟨-, -, hm'⟩ := fits_of_stay hm h (by simp) rfl
  obtain ⟨htext', -⟩ := fits_of_stay hm' h' (by simp) rfl
  have hstart : l'.start = l'.cursor := by rw [start, hm']
  rw [scan, hm] at hs hr
  rw [scan, hm', hstart, hr] at hs'
  obtain ⟨-, hend, htaken⟩ := Scan.string_eq_strText hs
  simp only [htaken] at hs'
  obtain ⟨rfl, -⟩ := Scan.string_eq_strText hs'
  rw [stringText_drop_taken hend] at htext'
  exact htext' rfl

end Lexer

end RequestCondition

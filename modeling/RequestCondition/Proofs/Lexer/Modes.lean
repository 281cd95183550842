import RequestCondition.Proofs.Lexer.Answer

/-!
# What tokens do to the modes

Two tokens open a mode and two close one, and all others leave the modes as they are.  `Shifts` says
so of a token alone, and `Lexer.scan_guided` says that a lexer goes by it: the token at hand tells
what happens to its modes.

So the modes of a lexer can be followed from its tokens, with no look at the source.  That is how
the tokens of one source are carried over to another that is written differently: the same tokens
lead the same way, from the same modes.  One thing a token does not say, namely which of the two
quotes has opened a string, and `Shifts` leaves that open too.

The lemmas about `Shifts` are its inversions, one for each token that turns.  They are stated with
the shift alone on one side of an equation, so that a proof which knows the token can rewrite the
modes behind it.
-/

set_option autoImplicit false

namespace RequestCondition

/-- Whether a token opens or closes a string or a reference. -/
def Token.turns : Token → Bool
  | strBegin | strEnd | varBegin | varEnd => true
  | _ => false

theorem Token.turns_of_isPlain {t : Token} (h : t.isPlain = true) : t.turns = false := by
  cases t <;> first | rfl | cases h

/-- A word ends in front of a quote. -/
theorem isWordChar_of_isQuote {quote : Char} (h : IsQuote quote) : isWordChar quote = false := by
  obtain rfl | rfl := h <;> decide

/-- Quotes are no blanks, so a string starts where its quote is found. -/
theorem isBlank_of_isQuote {quote : Char} (h : IsQuote quote) : isBlank quote = false := by
  obtain rfl | rfl := h <;> decide

/-- What a token that starts at `start` does to the modes, the innermost of which is the first
argument. -/
inductive Shifts (start : Nat) : Mode → Token → Shift → Prop
  | openString {c : Char} (hc : IsQuote c) :
      Shifts start .normal .strBegin (.enter (.string c start))
  | closeString (quote : Char) (opened : Nat) : Shifts start (.string quote opened) .strEnd .leave
  | openReference (m : Mode) : Shifts start m .varBegin (.enter (.reference start))
  | closeReference (opened : Nat) : Shifts start (.reference opened) .varEnd .leave
  | stay {t : Token} (m : Mode) (ht : t.turns = false) : Shifts start m t .stay

/-- Only the four tokens that turn do anything to the modes. -/
theorem Shifts.eq_stay {start : Nat} {m : Mode} {t : Token} {shift : Shift}
    (h : Shifts start m t shift) (ht : t.turns = false) : shift = .stay := by
  cases h with
  | stay => rfl
  | openString | closeString | openReference | closeReference => cases ht

theorem Shifts.eq_enter {start : Nat} {m : Mode} {shift : Shift}
    (h : Shifts start m .varBegin shift) : shift = .enter (.reference start) := by
  cases h with
  | openReference => rfl
  | stay _ ht => cases ht

theorem Shifts.eq_leave {start : Nat} {m : Mode} {shift : Shift}
    (h : Shifts start m .varEnd shift) : shift = .leave := by
  cases h with
  | closeReference => rfl
  | stay _ ht => cases ht

/-- A string is opened by a quote that the token does not tell. -/
theorem Shifts.eq_enter_string {start : Nat} {shift : Shift}
    (h : Shifts start .normal .strBegin shift) :
    ∃ quote opened, shift = .enter (.string quote opened) := by
  cases h with
  | openString => exact ⟨_, _, rfl⟩
  | stay _ ht => cases ht

theorem Shifts.eq_leave_string {start : Nat} {m : Mode} {shift : Shift}
    (h : Shifts start m .strEnd shift) : shift = .leave := by
  cases h with
  | closeString => rfl
  | stay _ ht => cases ht

/-- **A scan does to the modes what its token says.**  Each answer of the list carries its shift
with it, so the cases of the list are the cases of `Shifts`. -/
theorem Lexer.scan_guided {l : Lexer} {t : Token} (h : l.scan.outcome = .ok t) :
    Shifts l.start.offset l.mode t l.scan.shift := by
  have hans := l.scan_answered
  generalize l.scan = s, l.start.rest = cs, l.mode = m at h hans ⊢
  cases hans with
  | plain ht _ _ _ =>
    cases h
    exact .stay _ (Token.turns_of_isPlain ht)
  | beginString hc =>
    cases h
    exact .openString hc
  | beginReference _ _ =>
    cases h
    exact .openReference _
  | endString =>
    cases h
    exact .closeString _ _
  | endReference =>
    cases h
    exact .closeReference _
  | eof | backref _ _ | text _ _ _ | argument _ _ _ | name _ _ _ =>
    cases h
    exact .stay _ rfl
  | unclosed _ | strange _ _ => cases h

end RequestCondition

import RequestCondition.Proofs.Lexer.Modes
import RequestCondition.Proofs.Lexer.Splice

/-!
# Templates and strings

A template is a string without its quotes.  So a lexer that reads a template and one that reads the
same text between two quotes go side by side: `Lexer.Quoted q b l m` relates them where neither the
quote nor a NUL is left in the text, and `Lexer.Quoted.answers` says how they answer.  They give the
same tokens until the template ends, which is where the string is closed, or until both fail.  One
answer differs: a backslash that is the last of the text cuts the template off, and escapes the
quote of the string.  That string is then open at the end, and fails at the next token.

The relation is a simulation, made in three layers.

* **Text.**  A run of text stops in front of the same characters in both, as neither quote is among
  them.  `TextRun.before` says what the quote at the end makes of a run, and it does something to a
  run that is cut off only.
* **Scans** (`Scan.Beside`).  The two scans give one token, or both an error, or the one case above.
  What they do to the modes is left open at this point.
* **Answers** (`Lexer.Quoted.answers`).  The token tells what happens to the modes of either lexer
  (`Shifts`), so the modes go on to correspond (`Enclosed.apply`).

The string has one mode more than the template, that of the condition around it.  So the modes are
not equal but related, and `Enclosed` has one constructor for each of the two pairs that come up.

The last part is about a template whose text does have a NUL.  It ends there as a string does at its
quote, so one has to know where a NUL can stand: in the argument of a reference, and nowhere else in
front of that end.
-/

set_option autoImplicit false

namespace RequestCondition

/-! ## Text in front of a quote

Functions that look at the next character, or cut off a run of characters, do not notice a quote at
the end of the text: it is none of the characters they ask for. -/

section Text

variable {q c : Char} {cs : List Char}

/-- Either quote may be escaped. -/
theorem IsQuote.unescape? (hq : IsQuote q) : unescape? q = some q := by
  obtain rfl | rfl := hq <;> rfl

theorem nextIs_append_singleton {p : Char → Bool} (hp : p q = false) (cs : List Char) :
    nextIs p (cs ++ [q]) = nextIs p cs := by
  cases cs with
  | nil => exact hp
  | cons c cs => rfl

theorem takeWhile_append_singleton {p : Char → Bool} (hp : p q = false) (cs : List Char) :
    (cs ++ [q]).takeWhile p = cs.takeWhile p := by
  induction cs with
  | nil => rw [List.nil_append, List.takeWhile_cons, hp, List.takeWhile_nil]; rfl
  | cons c cs ih => rw [List.cons_append, List.takeWhile_cons, List.takeWhile_cons, ih]

theorem nextIs_brace_append (hq : IsQuote q) (cs : List Char) :
    nextIs (· == '\x7b') (cs ++ [q]) = nextIs (· == '\x7b') cs :=
  nextIs_append_singleton (by obtain rfl | rfl := hq <;> rfl) cs

theorem nextIs_isDigit_append (hq : IsQuote q) (cs : List Char) :
    nextIs isDigit (cs ++ [q]) = nextIs isDigit cs :=
  nextIs_append_singleton (by obtain rfl | rfl := hq <;> rfl) cs

/-- Text in front of a quote stops where the text of a template stops. -/
theorem stopsText_append (hq : IsQuote q) (hquote : q ∉ c :: cs) (hnul : '\x00' ∉ c :: cs) :
    stopsText q c (cs ++ [q]) = stopsText '\x00' c cs := by
  rw [stopsText, stopsText, nextIs_brace_append hq, nextIs_isDigit_append hq,
    beq_eq_false_iff_ne.2 (List.ne_of_not_mem_cons hquote).symm,
    beq_eq_false_iff_ne.2 (List.ne_of_not_mem_cons hnul).symm]

/-- What becomes of a run of text in front of a quote: a backslash at the end escapes it. -/
def TextRun.before (q : Char) (r : TextRun) : TextRun :=
  match r.ending with
  | .cutOff => ⟨r.text ++ [q], .done, r.taken + 1⟩
  | _ => r

/-- A character in front of a run does not change what becomes of it. -/
theorem TextRun.before_cons (q x : Char) (r : TextRun) (n : Nat) :
    TextRun.before q ⟨x :: r.text, r.ending, r.taken + n⟩ =
      ⟨x :: (r.before q).text, (r.before q).ending, (r.before q).taken + n⟩ := by
  obtain ⟨text, ending, taken⟩ := r
  cases ending with
  | done | badEscape _ => rfl
  | cutOff =>
    simp only [TextRun.before, List.cons_append]
    rw [Nat.add_right_comm]

/-- **A run of text in front of a quote** is the run of the template, unless that is cut off.  A
template ends at a NUL and a string at its quote.  The text has neither, so both stop at the same
characters, and at the end the string finds its quote where the template finds nothing. -/
theorem stringText_append (hq : IsQuote q) (hquote : q ∉ cs) (hnul : '\x00' ∉ cs) :
    stringText q (cs ++ [q]) = (stringText '\x00' cs).before q := by
  fun_induction stringText '\x00' cs with
  | case1 => exact stringText_cons_eq_iff.2 (by simp [stopsText])
  | case2 c cs hstop =>
    rw [← stopsText_append hq hquote hnul] at hstop
    exact stringText_cons_eq_iff.2 hstop
  | case3 hstop =>
    rw [← stopsText_append hq hquote hnul] at hstop
    rw [List.nil_append] at hstop
    rw [List.singleton_append, stringText.eq_def]
    simp only [if_neg hstop, if_true, hq.unescape?, stringText]
    rfl
  | case4 e cs he hstop =>
    rw [← stopsText_append hq hquote hnul] at hstop
    rw [List.cons_append, stringText.eq_def]
    simp only [if_neg hstop, if_true]
    simp only [List.cons_append, he]
    rfl
  | case5 e cs x he run hstop ih =>
    rw [← stopsText_append hq hquote hnul] at hstop
    rw [TextRun.before_cons, ← ih (fun h ↦ hquote (by simp [h])) (fun h ↦ hnul (by simp [h])),
      List.cons_append, stringText.eq_def]
    simp only [if_neg hstop, if_true]
    simp only [List.cons_append, he]
  | case6 c cs hstop hslash run ih =>
    rw [← stopsText_append hq hquote hnul] at hstop
    rw [TextRun.before_cons, ← ih (List.not_mem_of_not_mem_cons hquote)
      (List.not_mem_of_not_mem_cons hnul), List.cons_append, stringText.eq_def]
    simp only [if_neg hstop, if_neg hslash]

/-- A run of text that is cut off takes all there is. -/
theorem stringText_taken_of_cutOff (h : (stringText q cs).ending = .cutOff) :
    (stringText q cs).taken = cs.length := by
  fun_induction stringText q cs with
  | case1 => cases h
  | case2 => cases h
  | case3 => rfl
  | case4 => cases h
  | case5 e cs _ _ _ _ ih => exact congrArg (· + 2) (ih h)
  | case6 c cs _ _ _ ih => exact congrArg (· + 1) (ih h)

end Text

/-! ## Scans side by side

Inside a reference the end of the text is an error for both, but not the same one: the template
finds nothing where the string finds its quote. -/

/-- Whether a token stands inside a reference, and whether what follows it does. -/
inductive Token.Leads : Bool → Token → Bool → Prop
  | text (s : String) : Leads false (strText s) false
  | backref (k : Nat) : Leads false (backref k) false
  | openReference : Leads false varBegin true
  | name (s : String) : Leads true (identifier s) true
  | argument (arg : String) : Leads true (varArg arg) true
  | closeReference : Leads true varEnd false

namespace Scan

variable {q c : Char} {cs : List Char}

/-- Scans of a template and of a string where `n` characters are left of the template.  In the last
case a backslash is the last of them: the template is cut off, and the string goes on behind its
quote. -/
inductive Beside (inside : Bool) (n : Nat) : Scan → Scan → Prop
  | token {t : Token} {inside' : Bool} (ht : t.Leads inside inside') (taken : Nat)
      (shift shift' : Shift) : Beside inside n ⟨.ok t, taken, shift⟩ ⟨.ok t, taken, shift'⟩
  | fault (e e' : LexError) (taken taken' : Nat) (shift shift' : Shift) :
      Beside inside n ⟨.error e, taken, shift⟩ ⟨.error e', taken', shift'⟩
  | cutOff (hinside : inside = false) (e : LexError) (text : String) (taken : Nat) (shift : Shift) :
      Beside inside n ⟨.error e, taken, shift⟩ ⟨.ok (.strText text), n + 1, .stay⟩

/-- In the text of a string or of a template the scans are side by side. -/
theorem string_beside (hq : IsQuote q) (hquote : q ∉ c :: cs) (hnul : '\x00' ∉ c :: cs)
    (opened opened' start start' : Nat) : Beside false (c :: cs).length
      (string '\x00' opened start (c :: cs)) (string q opened' start' (c :: (cs ++ [q]))) := by
  rw [string, if_neg (List.ne_of_not_mem_cons hnul).symm, string,
    if_neg (List.ne_of_not_mem_cons hquote).symm, nextIs_brace_append hq, nextIs_isDigit_append hq]
  by_cases hvar : c = '%' ∧ nextIs (· == '\x7b') cs = true
  · rw [if_pos hvar, if_pos hvar]
    exact .token .openReference _ _ _
  rw [if_neg hvar, if_neg hvar]
  by_cases hgroup : c = '$' ∧ nextIs isDigit cs = true
  · rw [if_pos hgroup, if_pos hgroup]
    cases cs with
    | nil => cases hgroup.2
    | cons d cs => exact .token (.backref _) _ _ _
  rw [if_neg hgroup, if_neg hgroup]
  have hrun := stringText_append hq hquote hnul
  have hcut : (stringText '\x00' (c :: cs)).ending = .cutOff → _ := stringText_taken_of_cutOff
  rw [List.cons_append] at hrun
  simp only [hrun]
  generalize stringText '\x00' (c :: cs) = run at hcut
  obtain ⟨text, ending, taken⟩ := run
  cases ending with
  | done => exact .token (.text _) _ _ _
  | badEscape e => exact .fault _ _ _ _ _ _
  | cutOff =>
    rw [← hcut rfl]
    exact .cutOff rfl _ _ _ _

/-- Inside a reference the scans are side by side. -/
theorem reference_beside (hq : IsQuote q) (opened opened' start start' : Nat) :
    Beside true cs.length (reference opened start cs) (reference opened' start' (cs ++ [q])) := by
  have hword := isWordChar_of_isQuote hq
  cases cs with
  | nil =>
    have hq' : q ≠ '\x7d' ∧ q ≠ ':' := by obtain rfl | rfl := hq <;> decide
    rw [List.nil_append, reference, reference, if_neg hq'.1, if_neg hq'.2, hword]
    exact .fault _ _ _ _ _ _
  | cons c cs =>
    rw [List.cons_append, reference, reference]
    by_cases hbrace : c = '\x7d'
    · rw [if_pos hbrace, if_pos hbrace]
      exact .token .closeReference _ _ _
    rw [if_neg hbrace, if_neg hbrace]
    by_cases hcolon : c = ':'
    · rw [if_pos hcolon, if_pos hcolon]
      have hbrace : (q != '\x7d') = true := by obtain rfl | rfl := hq <;> rfl
      have hle := length_takeWhile_le (· != '\x7d') cs
      simp only
      by_cases hlen : (cs.takeWhile (· != '\x7d')).length < cs.length
      · have harg : (cs ++ [q]).takeWhile (· != '\x7d') = cs.takeWhile (· != '\x7d') := by
          rw [List.takeWhile_append, if_neg (Nat.ne_of_lt hlen)]
        rw [harg, if_pos hlen, if_pos (by rw [List.length_append]; omega)]
        exact .token (.argument _) _ _ _
      · have harg : (cs ++ [q]).takeWhile (· != '\x7d') = cs ++ [q] := by
          rw [List.takeWhile_append, if_pos (by omega), List.takeWhile_cons, hbrace]
          rfl
        rw [harg, if_neg hlen, if_neg (Nat.lt_irrefl _)]
        exact .fault _ _ _ _ _ _
    rw [if_neg hcolon, if_neg hcolon]
    by_cases hc : isWordChar c = true
    · have hsame : (c :: (cs ++ [q])).takeWhile isWordChar = (c :: cs).takeWhile isWordChar :=
        takeWhile_append_singleton hword (c :: cs)
      rw [if_pos hc, if_pos hc, hsame]
      exact .token (.name _) _ _ _
    · rw [if_neg hc, if_neg hc]
      exact .fault _ _ _ _ _ _

end Scan

/-! ## Answers side by side

`Quoted` is the relation that a step preserves, and `Answers` what one step can be. -/

namespace Lexer

variable {q : Char} {inside inside' : Bool} {l l' m m' : Lexer} {t : Token}

/-- The modes of a template and those of a string, inside a reference or not. -/
inductive Enclosed (q : Char) : Bool → List Mode → List Mode → Prop
  | text (opened opened' : Nat) :
      Enclosed q false [.string '\x00' opened] [.string q opened', .normal]
  | reference (start start' opened opened' : Nat) :
      Enclosed q true [.reference start, .string '\x00' opened]
        [.reference start', .string q opened', .normal]

/-- **One token keeps the modes in correspondence**, whatever the two lexers have done to them.
What they have done is known from the token, up to the places where strings and references were
opened. -/
theorem Enclosed.apply {ms ms' : List Mode} {start start' : Nat} {shift shift' : Shift}
    (h : Enclosed q inside ms ms') (ht : t.Leads inside inside')
    (hs : Shifts start (ms.headD .normal) t shift)
    (hs' : Shifts start' (ms'.headD .normal) t shift') :
    Enclosed q inside' (shift.apply ms) (shift'.apply ms') := by
  cases ht with
  | text | backref =>
    cases h
    rw [hs.eq_stay rfl, hs'.eq_stay rfl]
    exact .text _ _
  | openReference =>
    cases h
    rw [hs.eq_enter, hs'.eq_enter]
    exact .reference _ _ _ _
  | name | argument =>
    cases h
    rw [hs.eq_stay rfl, hs'.eq_stay rfl]
    exact .reference _ _ _ _
  | closeReference =>
    cases h
    rw [hs.eq_leave, hs'.eq_leave]
    exact .text _ _

/-- `l` reads the rest of a template, and `m` the same text and a quote behind it, which closes a
string there. -/
structure Quoted (q : Char) (inside : Bool) (l m : Lexer) : Prop where
  rest : m.cursor.rest = l.cursor.rest ++ [q]
  quote : q ∉ l.cursor.rest
  nul : '\x00' ∉ l.cursor.rest
  modes : Enclosed q inside l.modes m.modes
  template : l.template = true
  condition : m.template = false

/-- How a lexer of a template and one of a string answer.  In the last case the template is cut off,
and the string is not closed at its end. -/
inductive Answers (q : Char) (inside : Bool) (l m : Lexer) : Prop
  | token {t : Token} {l' m' : Lexer} {inside' : Bool} (ht : t.Leads inside inside')
      (hn : l.next = (.ok t, l')) (hn' : m.next = (.ok t, m')) (h : Quoted q inside' l' m')
  | finish {m' : Lexer} (hinside : inside = false) (hn : l.next.1 = .ok .eof)
      (hn' : m.next = (.ok .strEnd, m')) (hend : m'.next.1 = .ok .eof)
  | fault {e e' : LexError} (hn : l.next.1 = .error e) (hn' : m.next.1 = .error e')
  | cutOff {e e' : LexError} {text : String} {m' : Lexer} (hinside : inside = false)
      (hn : l.next.1 = .error e) (hn' : m.next = (.ok (.strText text), m'))
      (hend : m'.next.1 = .error e')

namespace Quoted

/-- Outside of references only the string is open. -/
theorem modes_text (h : Quoted q false l m) : ∃ opened opened',
    l.modes = [.string '\x00' opened] ∧ m.modes = [.string q opened', .normal] := by
  have hmodes := h.modes
  generalize l.modes = as at hmodes ⊢
  generalize m.modes = bs at hmodes ⊢
  cases hmodes
  exact ⟨_, _, rfl, rfl⟩

theorem modes_reference (h : Quoted q true l m) : ∃ start start' opened opened',
    l.modes = [.reference start, .string '\x00' opened] ∧
      m.modes = [.reference start', .string q opened', .normal] := by
  have hmodes := h.modes
  generalize l.modes = as at hmodes ⊢
  generalize m.modes = bs at hmodes ⊢
  cases hmodes
  exact ⟨_, _, _, _, rfl, rfl⟩

/-- The template ends where the string is closed. -/
theorem answers_end (h : Quoted q false l m) (hr : l.cursor.rest = []) : Answers q false l m := by
  obtain ⟨opened, opened', hl, hm⟩ := h.modes_text
  have hmmode : m.mode = .string q opened' := mode_of_modes hm
  have hmstart : m.start.rest = [q] := by rw [start, hmmode, h.rest, hr]; rfl
  have hs : m.scan = ⟨.ok .strEnd, 1, .leave⟩ := by
    rw [scan, hmmode, hmstart]
    exact if_pos rfl
  obtain ⟨m', hn, hr', hm', -⟩ :=
    next_of_token (atTemplateEnd_eq_false h.condition) (t := .strEnd) (by rw [hs])
  rw [hmstart, hs] at hr'
  rw [hs, hm] at hm'
  refine .finish rfl (next_eq_eof_iff.2 (.inl ?_)) hn
    (next_of_nil hr' (.inr (mode_of_modes hm'))).1
  rw [atTemplateEnd, h.template, hl, hr]
  rfl

/-- Where the lexers scan side by side, so they answer. -/
theorem answers_of_beside (h : Quoted q inside l m) (hend : l.atTemplateEnd = false)
    (hstart : m.start.rest = l.start.rest ++ [q]) (hmem : ∀ c ∈ l.start.rest, c ∈ l.cursor.rest)
    (hs : Scan.Beside inside l.start.rest.length l.scan m.scan) : Answers q inside l m := by
  have hend' := atTemplateEnd_eq_false h.condition
  generalize hscan : l.scan = s at hs
  generalize hscan' : m.scan = s' at hs
  cases hs with
  | token ht taken shift shift' =>
    have ho := congrArg Scan.outcome hscan
    have ho' := congrArg Scan.outcome hscan'
    have hguided := scan_guided ho
    have hguided' := scan_guided ho'
    have hle := l.scan_taken_le
    obtain ⟨l', hn, hr, hm, hl'⟩ := next_of_token hend ho
    obtain ⟨m', hn', hr', hm', hl''⟩ := next_of_token hend' ho'
    rw [hscan] at hr hm hguided hle
    rw [hscan'] at hr' hm' hguided'
    have hsub (c : Char) (hc : c ∈ l'.cursor.rest) : c ∈ l.cursor.rest := by
      rw [hr] at hc
      exact hmem c (List.mem_of_mem_drop hc)
    refine .token ht hn hn' ⟨?_, fun hc ↦ h.quote (hsub _ hc), fun hc ↦ h.nul (hsub _ hc), ?_,
      hl'.trans h.template, hl''.trans h.condition⟩
    · rw [hr', hr, hstart, List.drop_append_of_le_length hle]
    · rw [hm, hm']
      exact h.modes.apply ht hguided hguided'
  | fault e e' taken taken' shift shift' =>
    exact .fault (next_of_error hend (congrArg Scan.outcome hscan))
      (next_of_error hend' (congrArg Scan.outcome hscan'))
  | cutOff hinside e text taken shift =>
    subst hinside
    obtain ⟨opened, opened', -, hmodes⟩ := h.modes_text
    obtain ⟨m', hn', hr', hm', hl'⟩ := next_of_token hend' (congrArg Scan.outcome hscan')
    rw [hscan'] at hr' hm'
    have hmmode : m'.mode = .string q opened' := mode_of_modes (hm'.trans hmodes)
    have hmstart : m'.start.rest = [] := by
      rw [start, hmmode, hr', hstart]
      exact List.drop_eq_nil_of_le (by simp)
    have hs : m'.scan.outcome = .error ⟨.openString, opened'⟩ := by
      rw [scan, hmmode, hmstart]
      rfl
    exact .cutOff rfl (next_of_error hend (congrArg Scan.outcome hscan)) hn'
      (next_of_error (atTemplateEnd_eq_false (hl'.trans h.condition)) hs)

/-- In text the lexers answer side by side. -/
theorem answers_text (h : Quoted q false l m) (hq : IsQuote q) : Answers q false l m := by
  cases hr : l.cursor.rest with
  | nil => exact h.answers_end hr
  | cons c cs =>
    obtain ⟨opened, opened', hl, hm⟩ := h.modes_text
    have hlmode : l.mode = .string '\x00' opened := mode_of_modes hl
    have hmmode : m.mode = .string q opened' := mode_of_modes hm
    have hlstart : l.start = l.cursor := by rw [start, hlmode]
    have hmstart : m.start = m.cursor := by rw [start, hmmode]
    have hend : l.atTemplateEnd = false := by
      rw [atTemplateEnd, hr, List.isEmpty_cons, Bool.and_false]
    refine h.answers_of_beside hend (by rw [hlstart, hmstart, h.rest])
      (hlstart ▸ fun _ hc ↦ hc) ?_
    rw [scan, scan, hlmode, hmmode, hlstart, hmstart, h.rest, hr]
    exact Scan.string_beside hq (hr ▸ h.quote) (hr ▸ h.nul) _ _ _ _

/-- Inside a reference the lexers answer side by side, behind the same blanks. -/
theorem answers_reference (h : Quoted q true l m) (hq : IsQuote q) : Answers q true l m := by
  obtain ⟨start, start', opened, opened', hl, hm⟩ := h.modes_reference
  have hlmode : l.mode = .reference start := mode_of_modes hl
  have hmmode : m.mode = .reference start' := mode_of_modes hm
  have hend : l.atTemplateEnd = false := by
    rw [atTemplateEnd, h.template, hl]
    rfl
  have hlstart : l.start.rest = l.cursor.rest.dropWhile isBlank := by rw [Lexer.start, hlmode]; rfl
  have hmstart : m.start.rest = l.start.rest ++ [q] := by
    have hblank : isBlank q = false := isBlank_of_isQuote hq
    rw [hlstart, Lexer.start, hmmode]
    change m.cursor.rest.dropWhile isBlank = _
    rw [h.rest, List.dropWhile_append]
    cases hr : l.cursor.rest.dropWhile isBlank with
    | nil => simp [hblank]
    | cons c cs => rfl
  refine h.answers_of_beside hend hmstart
    (hlstart ▸ fun _ hc ↦ (List.dropWhile_sublist _).subset hc) ?_
  rw [scan, scan, hlmode, hmmode, hmstart]
  exact Scan.reference_beside hq _ _ _ _

/-- **A lexer of a template and one of a string answer side by side.** -/
theorem answers (h : Quoted q inside l m) (hq : IsQuote q) : Answers q inside l m := by
  cases inside with
  | false => exact h.answers_text hq
  | true => exact h.answers_reference hq

end Quoted

end Lexer

/-! ## The characters of tokens of a template

These lemmas go from a token back to the characters it has been read from.  They are kept for the
mode of the template and for references in it, which is all that comes up in a template. -/

/-- Text of a template stops in front of every NUL, since a NUL cannot be escaped. -/
theorem nul_not_mem_take (cs : List Char) :
    '\x00' ∉ cs.take (stringText '\x00' cs).taken := by
  fun_induction stringText '\x00' cs with
  | case1 => simp
  | case2 => simp
  | case3 => simp
  | case4 => simp
  | case5 e cs x he _ _ ih =>
    have hne : e ≠ '\x00' := by
      rintro rfl
      cases he
    simpa [hne.symm] using ih
  | case6 c cs hstop _ _ ih =>
    have hne : c ≠ '\x00' := by
      rintro rfl
      exact hstop rfl
    simpa [hne.symm] using ih

namespace Scan

variable {t : Token} {cs : List Char} {opened start : Nat}

/-- What a token of a template looks like that does not end it. -/
theorem string_nul_ok (h : (string '\x00' opened start cs).outcome = .ok t) (ht : t ≠ .strEnd) :
    t = .varBegin ∧ (∃ y, cs = '%' :: '\x7b' :: y) ∧
        (string '\x00' opened start cs).taken = 2 ∨
      t.Leads false false ∧ '\x00' ∉ cs.take (string '\x00' opened start cs).taken := by
  cases cs with
  | nil => cases h
  | cons c cs =>
    rw [string] at h ⊢
    by_cases hnul : c = '\x00'
    · rw [if_pos hnul] at h
      exact absurd (Except.ok.inj h).symm ht
    rw [if_neg hnul] at h ⊢
    by_cases hvar : c = '%' ∧ nextIs (· == '\x7b') cs = true
    · rw [if_pos hvar] at h ⊢
      obtain ⟨rfl, hbrace⟩ := hvar
      cases cs with
      | nil => cases hbrace
      | cons d cs =>
        obtain rfl : d = '\x7b' := by simpa [nextIs] using hbrace
        exact .inl ⟨(Except.ok.inj h).symm, ⟨cs, rfl⟩, rfl⟩
    rw [if_neg hvar] at h ⊢
    by_cases hgroup : c = '$' ∧ nextIs isDigit cs = true
    · rw [if_pos hgroup] at h ⊢
      obtain ⟨rfl, hdigit⟩ := hgroup
      cases cs with
      | nil => cases hdigit
      | cons d cs =>
        have hd : d ≠ '\x00' := by
          rintro rfl
          cases hdigit
        refine .inr ⟨Except.ok.inj h ▸ .backref _, ?_⟩
        simpa using hd.symm
    rw [if_neg hgroup] at h ⊢
    have htake := nul_not_mem_take (c :: cs)
    simp only at h ⊢
    generalize stringText '\x00' (c :: cs) = run at h htake ⊢
    obtain ⟨text, ending, taken⟩ := run
    cases ending with
    | done => exact .inr ⟨Except.ok.inj h ▸ .text _, htake⟩
    | badEscape _ | cutOff => cases h

/-- What a token of a reference looks like. -/
inductive InReference : List Char → Token → Nat → Prop
  | closing (y : List Char) : InReference ('\x7d' :: y) .varEnd 1
  | argument {arg : List Char} (y : List Char) (h : '\x7d' ∉ arg) :
      InReference (':' :: (arg ++ '\x7d' :: y)) (.varArg (String.ofList arg)) (1 + arg.length)
  | name {word : List Char} (y : List Char) (h : ∀ c ∈ word, isWordChar c = true) :
      InReference (word ++ y) (.identifier (String.ofList word)) word.length

/-- A token of a reference is its end, an argument or a name, and takes the characters of it. -/
theorem reference_ok (h : (reference opened start cs).outcome = .ok t) :
    InReference cs t (reference opened start cs).taken := by
  cases cs with
  | nil => cases h
  | cons c cs =>
    rw [reference] at h ⊢
    by_cases hbrace : c = '\x7d'
    · rw [if_pos hbrace] at h ⊢
      cases h
      subst hbrace
      exact .closing cs
    rw [if_neg hbrace] at h ⊢
    by_cases hcolon : c = ':'
    · rw [if_pos hcolon] at h ⊢
      subst hcolon
      simp only at h ⊢
      by_cases hlen : (cs.takeWhile (· != '\x7d')).length < cs.length
      · rw [if_pos hlen] at h ⊢
        cases h
        have happend := List.takeWhile_append_dropWhile (p := (· != '\x7d')) (l := cs)
        have hnext := Lexer.nextIs_dropWhile (· != '\x7d') cs
        generalize cs.dropWhile (· != '\x7d') = y at happend hnext
        cases y with
        | nil =>
          rw [List.append_nil] at happend
          rw [happend] at hlen
          exact absurd hlen (Nat.lt_irrefl _)
        | cons d y =>
          obtain rfl : d = '\x7d' := by simpa [nextIs] using hnext
          have harg : '\x7d' ∉ cs.takeWhile (· != '\x7d') := fun hmem ↦ by
            simpa using List.mem_takeWhile_imp hmem
          have hargument := InReference.argument y harg
          rwa [happend] at hargument
      · rw [if_neg hlen] at h
        cases h
    rw [if_neg hcolon] at h ⊢
    by_cases hword : isWordChar c = true
    · rw [if_pos hword] at h ⊢
      cases h
      have hall : ∀ d ∈ (c :: cs).takeWhile isWordChar, isWordChar d = true :=
        fun _ ↦ List.mem_takeWhile_imp
      have hname := InReference.name ((c :: cs).dropWhile isWordChar) hall
      rwa [List.takeWhile_append_dropWhile] at hname
    · rw [if_neg hword] at h
      cases h

end Scan

namespace Lexer

variable {l l' : Lexer} {t : Token} {opened : Nat}

theorem modes_of_token (h : l.next = (.ok t, l')) (hteof : t ≠ .eof) (ht : t.turns = false) :
    l'.modes = l.modes := by
  obtain ⟨hs, -, -, hmodes, -⟩ := of_token h hteof
  rw [hmodes, (scan_guided hs).eq_stay ht, Shift.apply]

/-- Text and groups of a template have no NUL in them. -/
theorem next_text (hm : l.mode = .string '\x00' opened) (h : l.next = (.ok t, l'))
    (ht : t.Leads false false) :
    ∃ u, '\x00' ∉ u ∧ l.cursor.rest = u ++ l'.cursor.rest ∧ l'.modes = l.modes := by
  have hteof : t ≠ .eof := by rintro rfl; cases ht
  have hturns : t.turns = false := by cases ht <;> rfl
  obtain ⟨hs, hr, hr', -⟩ := of_token h hteof
  have hscan : l.scan = Scan.string '\x00' opened l.start.offset l.start.rest := by rw [scan, hm]
  rw [hscan] at hs hr'
  rw [blanks_of_string hm, List.nil_append] at hr
  obtain ⟨rfl, -⟩ | ⟨-, htake⟩ := Scan.string_nul_ok hs (by rintro rfl; cases ht)
  · cases ht
  · refine ⟨_, htake, ?_, modes_of_token h hteof hturns⟩
    rw [hr', List.take_append_drop, hr]

/-- A reference is opened by its two characters. -/
theorem next_opening (hm : l.mode = .string '\x00' opened) (h : l.next = (.ok .varBegin, l')) :
    l.cursor.rest = '%' :: '\x7b' :: l'.cursor.rest ∧
      ∃ start, l'.modes = .reference start :: l.modes := by
  obtain ⟨hs, hr, hr', hmodes, -⟩ := of_token h (by decide)
  have hshift := scan_guided hs
  have hscan : l.scan = Scan.string '\x00' opened l.start.offset l.start.rest := by rw [scan, hm]
  rw [hscan] at hs hr'
  rw [blanks_of_string hm, List.nil_append] at hr
  obtain ⟨-, ⟨y, hy⟩, htaken⟩ | ⟨ht, -⟩ := Scan.string_nul_ok hs (by decide)
  · refine ⟨?_, ?_⟩
    · rw [hr', htaken, hr, hy]
      rfl
    · rw [hshift.eq_enter] at hmodes
      exact ⟨_, hmodes⟩
  · cases ht

/-- A token of a reference stands behind some blanks. -/
theorem next_reference (hm : l.mode = .reference opened) (h : l.next = (.ok t, l'))
    (ht : t ≠ .eof) : ∃ b cs n, (∀ c ∈ b, isBlank c = true) ∧ l.cursor.rest = b ++ cs ∧
      Scan.InReference cs t n ∧ l'.cursor.rest = cs.drop n := by
  obtain ⟨hs, hr, hr', -⟩ := of_token h ht
  have hscan : l.scan = Scan.reference opened l.start.offset l.start.rest := by rw [scan, hm]
  rw [hscan] at hs hr'
  exact ⟨_, _, _, fun _ ↦ isBlank_of_mem_blanks, hr, Scan.reference_ok hs, hr'⟩

theorem next_name {name : String} (hm : l.mode = .reference opened)
    (h : l.next = (.ok (.identifier name), l')) :
    ∃ b, (∀ c ∈ b, isBlank c = true) ∧ (∀ c ∈ name.toList, isWordChar c = true) ∧
      l.cursor.rest = b ++ (name.toList ++ l'.cursor.rest) ∧ l'.modes = l.modes := by
  obtain ⟨b, cs, n, hb, hr, hcs, hr'⟩ := next_reference hm h (by simp)
  cases hcs with
  | name y hword =>
    rw [List.drop_left] at hr'
    rw [String.toList_ofList, hr']
    exact ⟨b, hb, hword, hr, modes_of_token h (by simp) rfl⟩

theorem next_argument {arg : String} (hm : l.mode = .reference opened)
    (h : l.next = (.ok (.varArg arg), l')) :
    ∃ b y, (∀ c ∈ b, isBlank c = true) ∧ '\x7d' ∉ arg.toList ∧ l'.cursor.rest = '\x7d' :: y ∧
      l.cursor.rest = b ++ ':' :: (arg.toList ++ l'.cursor.rest) ∧ l'.modes = l.modes := by
  obtain ⟨b, cs, n, hb, hr, hcs, hr'⟩ := next_reference hm h (by simp)
  cases hcs with
  | argument y harg =>
    rw [Nat.add_comm, List.drop_succ_cons, List.drop_left] at hr'
    rw [String.toList_ofList, hr']
    exact ⟨b, y, hb, harg, rfl, hr, modes_of_token h (by simp) rfl⟩

/-- A reference is closed by a brace behind some blanks. -/
theorem next_closing (hm : l.mode = .reference opened) (h : l.next = (.ok .varEnd, l')) :
    ∃ b, (∀ c ∈ b, isBlank c = true) ∧ l.cursor.rest = b ++ '\x7d' :: l'.cursor.rest ∧
      l'.modes = l.modes.tail := by
  obtain ⟨b, cs, n, hb, hr, hcs, hr'⟩ := next_reference hm h (by decide)
  obtain ⟨hs, -, -, hmodes, -⟩ := of_token h (by decide)
  have hshift := scan_guided hs
  rw [hshift.eq_leave] at hmodes
  cases hcs with
  | closing y => exact ⟨b, hb, hr' ▸ hr, hmodes⟩

end Lexer

end RequestCondition

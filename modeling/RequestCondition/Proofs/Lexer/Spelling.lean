import RequestCondition.Proofs.Lexer.Modes
import RequestCondition.Proofs.Lexer.Splice
import RequestCondition.Proofs.Parser.Failure
import RequestCondition.Proofs.Parser.Place

/-!
# Writing tokens down

A lexer keeps track of places with its modes (`Place.At`, `Place.At.next`).  So where the tokens
that finish a condition are written down, a lexer that stands at their place reads them again:
`Lexer.tokenizes_spell`.

The tokens in question are those that close what is open and supply an operand where one is missing
(`Phrase.Filler`).  There are seven kinds of them, and each is spelled without regard to what stands
around it, but for a blank in front.  The blank keeps a word from running into the one before.  It
is left out where a string or a reference is closed, since in a string it would be text.

* `Place.At` says which modes go with which place.  A place in a reference knows what is around the
  reference, and so do the modes.
* The quote that closes a string is not to be seen from the place, so it is carried along, and may
  change when a string is opened.
* `scan_chars` is about one token.  It is one case for each filler, and the place tells the mode
  that the scan is made in.

Together with the completion of phrases this shows that a source can be finished: tokens that
complete what has been read are found first, as tokens, and then they are written down.
-/

set_option autoImplicit false

namespace RequestCondition

/-! ## Places and modes

A place is told from the tokens alone, and modes from the source; this is where they meet. -/

namespace Place

/-- A lexer in the modes `ms` is at a place; `quote` closes the string around it, if any. -/
inductive At (quote : Char) : Place → List Mode → Prop
  | condition : At quote condition [.normal]
  | string (opened : Nat) : At quote string [.string quote opened, .normal]
  | name {b : Bool} {ms : List Mode} (opened : Nat) (h : At quote (outside b) ms) :
      At quote (.name b) (.reference opened :: ms)
  | named {b : Bool} {ms : List Mode} (opened : Nat) (h : At quote (outside b) ms) :
      At quote (.named b) (.reference opened :: ms)

variable {P P' : Place} {l l' : Lexer} {t : Token} {quote : Char}

/-- Between the tokens of a condition no string and no reference is open. -/
theorem At.mode_condition (h : At quote .condition l.modes) : l.mode = .normal := by
  rw [Lexer.mode]
  generalize l.modes = ms at h
  cases h
  rfl

theorem At.mode_string (h : At quote .string l.modes) :
    ∃ opened, l.mode = .string quote opened := by
  rw [Lexer.mode]
  generalize l.modes = ms at h
  cases h
  exact ⟨_, rfl⟩

theorem At.mode_named {b : Bool} (h : At quote (.named b) l.modes) :
    ∃ opened, l.mode = .reference opened := by
  rw [Lexer.mode]
  generalize l.modes = ms at h
  cases h
  exact ⟨_, rfl⟩

/-- **Reading a token leads a lexer where the token leads.**  Both are known from the token, the one
by its shift and the other by its step, so there is a case for each step. -/
theorem At.next (h : At quote P l.modes) (hq : IsQuote quote) (hl : l.template = false)
    (hn : l.next = (.ok t, l')) (hstep : Step P t P') :
    ∃ quote', IsQuote quote' ∧ At quote' P' l'.modes ∧ (t ≠ .strBegin → quote' = quote) := by
  obtain ⟨hs, -, hmodes, -⟩ := Lexer.of_next hl hn
  have hshift := Lexer.scan_guided hs
  rw [Lexer.mode] at hshift
  rw [hmodes]
  generalize l.modes = ms at h hshift
  generalize l.scan.shift = shift at hshift
  cases hstep with
  | plain ht =>
    cases h
    cases hshift with
    | openString | openReference => cases ht
    | stay => exact ⟨quote, hq, .condition, fun _ ↦ rfl⟩
  | openString =>
    cases h
    cases hshift with
    | openString hc => exact ⟨_, hc, .string _, fun h ↦ absurd rfl h⟩
    | stay _ ht => cases ht
  | text | backref =>
    cases h
    cases hshift
    exact ⟨quote, hq, .string _, fun _ ↦ rfl⟩
  | closeString =>
    cases h
    cases hshift with
    | closeString => exact ⟨quote, hq, .condition, fun _ ↦ rfl⟩
    | stay _ ht => cases ht
  | openReference b =>
    rw [hshift.eq_enter]
    exact ⟨quote, hq, .name _ h, fun _ ↦ rfl⟩
  | name b n =>
    cases h with
    | name _ h =>
      cases hshift
      exact ⟨quote, hq, .named _ h, fun _ ↦ rfl⟩
  | argument b arg =>
    cases h with
    | named _ h =>
      cases hshift
      exact ⟨quote, hq, .named _ h, fun _ ↦ rfl⟩
  | closeReference b =>
    cases h with
    | named _ h =>
      rw [hshift.eq_leave]
      exact ⟨quote, hq, h, fun _ ↦ rfl⟩

/-- What a lexer has read leads it where the tokens lead. -/
theorem At.reads {ts : List Token} (h : At quote P l.modes) (hq : IsQuote quote)
    (hl : l.template = false) (hr : l.Reads ts l') (hsteps : Steps P ts P') :
    ∃ quote', IsQuote quote' ∧ At quote' P' l'.modes ∧ l'.template = false := by
  induction hr generalizing P quote with
  | done l =>
    cases hsteps
    exact ⟨quote, hq, h, hl⟩
  | more hn _ _ ih =>
    cases hsteps with
    | cons hstep hsteps =>
      obtain ⟨quote', hq', h', -⟩ := h.next hq hl hn hstep
      exact ih h' hq' (Lexer.of_next hl hn).2.2.2 hsteps

end Place

/-! ## Tokens that finish a condition

How fillers are spelled, and that their spelling is read again. -/

namespace Token

/-- The characters of a token that finishes something; `quote` closes strings. -/
def chars (quote : Char) : Token → List Char
  | identifier word => word.toList
  | regex pattern _ => '/' :: (pattern.toList ++ ['/'])
  | lbrace => ['\x7b']
  | rbrace | varEnd => ['\x7d']
  | rparen => [')']
  | strEnd => [quote]
  | _ => []

/-- A blank, unless the token closes a string or a reference. -/
def margin : Token → List Char
  | varEnd | strEnd => []
  | _ => [' ']

/-- How tokens that finish something are written down. -/
def spell (quote : Char) (ts : List Token) : List Char :=
  ts.flatMap fun t ↦ t.margin ++ t.chars quote

end Token

/-- A string is closed in front of its quote, whatever comes then. -/
theorem Closed.of_quote {quote : Char} {x cs : List Char} (h : IsQuote quote) :
    Closed quote x (quote :: cs) where
  stops _ := by
    rw [stringText_cons_eq_iff, stopsText, beq_self_eq_true, Bool.true_or, Bool.true_or]
  brace _ := by
    obtain rfl | rfl := h <;> rfl
  digit _ := nextIs_isDigit_of_isWordChar (isWordChar_of_isQuote h)

namespace Lexer

open Phrase (Filler)
open Place (At Step Steps)
open Token (spell)

variable {quote : Char} {t : Token} {ts : List Token} {P P' : Place} {l : Lexer}
  {b y : List Char}

/-- What is written down does not go on with a word before it. -/
theorem nextIs_spell (hq : IsQuote quote) (h : ∀ t ∈ ts, Filler t) :
    nextIs isWordChar (spell quote ts) = false := by
  cases ts with
  | nil => rfl
  | cons t ts =>
    cases h t List.mem_cons_self with
    | strEnd => exact isWordChar_of_isQuote hq
    | varEnd => exact (by decide : isWordChar '\x7d' = false)
    | _ => exact (by decide : isWordChar ' ' = false)

/-- The characters of a filler start with no blank, so its token starts where they do. -/
theorem nextIs_chars (hq : IsQuote quote) (h : Filler t) :
    nextIs isBlank (t.chars quote ++ y) = false := by
  cases h with
  | strEnd => exact isBlank_of_isQuote hq
  | _ => rfl

theorem isBlank_of_mem_margin {c : Char} (t : Token) (h : c ∈ t.margin) : isBlank c = true := by
  have hc : c = ' ' := by
    cases t <;> first | exact List.mem_singleton.1 h | cases h
  rw [hc]
  rfl

/-- What is written down is read where it belongs. -/
theorem scan_chars (h : Filler t) (hstep : Step P t P') (hat : At quote P l.modes)
    (hr : l.start.rest = t.chars quote ++ y) (hy : nextIs isWordChar y = false) :
    l.scan.outcome = .ok t ∧ l.scan.taken = (t.chars quote).length := by
  rw [scan, mode, hr]
  generalize l.modes = ms at hat
  cases h with
  | word =>
    have hword : ('a' :: y).takeWhile isWordChar = ['a'] :=
      takeWhile_append_eq (a := ['a']) (by simp; decide) hy
    cases hstep with
    | plain =>
      cases hat
      change (Scan.normal _ _ ('a' :: y)).outcome = _ ∧ (Scan.normal _ _ ('a' :: y)).taken = 1
      rw [Scan.normal_of_isWordStart (by decide), Scan.plain_of_word (by decide) (by simp), hword]
      exact ⟨rfl, rfl⟩
    | name _ _ =>
      cases hat
      change (Scan.reference _ _ ('a' :: y)).outcome = _ ∧ (Scan.reference _ _ ('a' :: y)).taken = 1
      rw [Scan.reference, if_neg (by decide), if_neg (by decide), if_pos (by decide), hword]
      exact ⟨rfl, rfl⟩
  | regex =>
    cases hstep
    cases hat
    change (Scan.regex _ 1 '/' ('/' :: y)).outcome = _ ∧ (Scan.regex _ 1 '/' ('/' :: y)).taken = 2
    have hbody : regexBody '/' ('/' :: y) = some ([], 0) := by
      rw [regexBody.eq_def]
      rfl
    rw [Scan.regex, hbody]
    simp only [List.drop_succ_cons, List.drop_zero, hasIgnoreCaseFlag_eq_false hy]
    exact ⟨trivial, rfl⟩
  | lbrace | rbrace | rparen =>
    cases hstep
    cases hat
    exact ⟨rfl, rfl⟩
  | varEnd =>
    cases hstep with
    | plain ht => cases ht
    | closeReference _ =>
      cases hat
      exact ⟨rfl, rfl⟩
  | strEnd =>
    cases hstep with
    | plain ht => cases ht
    | closeString =>
      cases hat
      change (Scan.string quote _ _ (quote :: y)).outcome = _ ∧
        (Scan.string quote _ _ (quote :: y)).taken = 1
      rw [Scan.string, if_pos rfl]
      exact ⟨rfl, rfl⟩

/-- A string is closed at its place, and blanks are left out there. -/
theorem margin_of_string {opened : Nat} {q : Char} (h : Filler t) (hstep : Step P t P')
    (hat : At quote P l.modes) (hm : l.mode = .string q opened) : t.margin = [] := by
  have hP : P = .string := by
    rw [mode] at hm
    generalize l.modes = ms at hat hm
    cases hat with
    | string => rfl
    | condition | name | named => cases hm
  cases h with
  | varEnd | strEnd => rfl
  | _ => cases hstep <;> cases hP

/-- **Tokens that finish a condition are read where they are written down.**  The induction is on
the tokens.  What is behind a token starts with a character that ends it, so it can be read on its
own. -/
theorem tokenizes_spell (hq : IsQuote quote) (h : ∀ t ∈ ts, Filler t)
    (hsteps : Steps P ts .condition) (hat : At quote P l.modes) (hl : l.template = false)
    (hb : ∀ c ∈ b, isBlank c = true) (hr : l.cursor.rest = b ++ spell quote ts)
    (hstring : ∀ quote opened, l.mode = .string quote opened → b = []) : l.Tokenizes ts := by
  induction ts generalizing P l b with
  | nil =>
    cases hsteps
    exact ⟨l, .done l,
      next_eq_eof_iff.2 (.inr ⟨hat.mode_condition, start_of_blanks hb hr (fun _ ↦ rfl) hstring⟩)⟩
  | cons t ts ih =>
    cases hsteps with
    | @cons _ P₁ _ _ _ hstep hsteps =>
    have ht : Filler t := h t List.mem_cons_self
    have hts : ∀ t ∈ ts, Filler t := fun u hu ↦ h u (List.mem_cons_of_mem t hu)
    have hopen : t ≠ .strBegin := by rintro rfl; cases ht
    have heof : t ≠ .eof := by rintro rfl; cases ht
    have hstart : l.start.rest = t.chars quote ++ spell quote ts := by
      refine start_of_blanks (b := b ++ t.margin) ?_ ?_ (fun _ ↦ nextIs_chars hq ht) ?_
      · intro c hc
        exact (List.mem_append.1 hc).elim (hb c) (isBlank_of_mem_margin t)
      · rw [hr, spell, List.flatMap_cons, List.append_assoc, List.append_assoc]
        rfl
      · intro q opened hm
        rw [hstring q opened hm, margin_of_string ht hstep hat hm, List.append_nil]
    obtain ⟨hs, htaken⟩ := scan_chars ht hstep hat hstart (nextIs_spell hq hts)
    obtain ⟨l₁, hn, hcursor, -, hl₁⟩ := next_of_token (atTemplateEnd_eq_false hl) hs
    obtain ⟨quote', -, hat₁, hquote⟩ := hat.next hq hl hn hstep
    rw [hquote hopen] at hat₁
    have hr₁ : l₁.cursor.rest = [] ++ spell quote ts := by
      rw [hcursor, hstart, htaken, List.drop_left]
      rfl
    obtain ⟨l₂, hreads, hend⟩ := ih hts hsteps hat₁ (hl₁.trans hl) (by simp) hr₁ fun _ _ _ ↦ rfl
    exact ⟨l₂, .more hn heof hreads, hend⟩

end Lexer

end RequestCondition

import RequestCondition.Proofs.Lexer.Modes
import RequestCondition.Proofs.Lexer.Splice
import RequestCondition.Proofs.Parser.Lockstep

/-!
# Layout and spelling

A condition can be written down in many ways.  Blanks may stand before every token that is neither
in a string nor in a reference, and ten operators have two spellings.  `Lexer.Relaid l cs` says that
the characters `cs` are what the lexer `l` has before it, with blanks put in and operators spelled
otherwise, at any number of tokens at once.

The lexer reads the same tokens from them (`Lexer.Relaid.tokenizes`).  A token that stays is one
that a lexer at another place reads as well, since places have no part in a scan (`Scan.unplaced`),
and what stands behind it goes on with it only where it did before (`Lexer.Relaid.replaces`).  A
token that is spelled anew has a blank behind it.

A parser does not look at places either, so the trees are equal, and so are the kinds of errors:
`Expression.parse_relaid`.

Two things are to be minded.

* Blanks are put in and never taken away, since `a b` without its blank is one word.  For the same
  reason a new spelling stands between two blanks, although many of them could do without.
* A relation of one change to the next would have to be closed under chains of changes, and the
  lexers in between would all have to be spoken of.  `Relaid` goes along the tokens instead: at each
  of them it is said what has become of it, and one induction settles any number of changes.

In the middle of the induction stands a lexer in the same modes as the original one and at another
place (`Lexer.Alike`).  It has some blanks `e` before the text that the relation speaks of, namely
the one that a new spelling leaves behind.
-/

set_option autoImplicit false

namespace RequestCondition

/-! ## Places have no part in a scan

A mode remembers where it was opened, and a scan is given the offset of its token.  Both are there
for error messages.  `unplaced` takes them off, and what is left of two scans of the same text is
equal. -/

/-- The shift to modes at no place in particular. -/
def Shift.unplaced : Shift → Shift
  | stay => stay
  | enter m => enter m.unplaced
  | leave => leave

namespace Scan

/-- What a scan answers, but for places. -/
def unplaced (s : Scan) : Except LexCause Token × Nat × Shift :=
  (s.outcome.mapError LexError.cause, s.taken, s.shift.unplaced)

end Scan

namespace Lexer

variable {l l' m : Lexer} {t : Token} {b cs : List Char}

/-- Lexers in the same modes, at whatever places and in front of whatever text. -/
structure Alike (l m : Lexer) : Prop where
  modes : l.modes.map Mode.unplaced = m.modes.map Mode.unplaced
  template : l.template = m.template
  regexAllowed : l.regexAllowed = m.regexAllowed

namespace Alike

theorem symm (h : Alike l m) : Alike m l :=
  ⟨h.modes.symm, h.template.symm, h.regexAllowed.symm⟩

theorem withRest (h : Alike l m) (cs : List Char) : Alike (l.withRest cs) m :=
  ⟨h.modes, h.template, h.regexAllowed⟩

theorem mode (h : Alike l m) : l.mode.unplaced = m.mode.unplaced := by
  have hmodes := h.modes
  rw [Lexer.mode, Lexer.mode]
  generalize l.modes = as at hmodes
  generalize m.modes = bs at hmodes
  cases as with
  | nil =>
    obtain rfl := List.map_eq_nil_iff.1 hmodes.symm
    rfl
  | cons a as =>
    obtain ⟨b, bs, rfl, hb, -⟩ := List.map_eq_cons_iff.1 hmodes.symm
    exact hb.symm

theorem mode_normal (h : Alike l m) (hl : l.mode = .normal) : m.mode = .normal := by
  have hmode := h.mode
  rw [hl] at hmode
  generalize m.mode = n at hmode ⊢
  cases n with
  | normal => rfl
  | string _ _ | reference _ => cases hmode

/-- The quote of a string is not a place, so alike lexers agree on it. -/
theorem mode_string {quote : Char} {opened : Nat} (h : Alike l m)
    (hm : m.mode = .string quote opened) : ∃ opened', l.mode = .string quote opened' := by
  have hmode := h.mode
  rw [hm] at hmode
  generalize l.mode = n at hmode ⊢
  cases n with
  | string _ _ =>
    obtain ⟨rfl, -⟩ := Mode.string.inj hmode
    exact ⟨_, rfl⟩
  | normal | reference _ => cases hmode

theorem scan (h : Alike l m) (hr : l.start.rest = m.start.rest) :
    l.scan.unplaced = m.scan.unplaced := by
  have hans := scans_answered h.mode h.regexAllowed hr
  generalize l.scan = s, m.scan = s', l.start.rest = cs, l.mode = a, m.mode = b at hans ⊢
  cases hans <;> rfl

/-- Lexers that read the same token, and to which it does the same, go on to be alike. -/
theorem next (h : Alike l m) (hl : l.template = false) (hn : l.next = (.ok t, l'))
    (hs : m.scan.outcome = .ok t) (hshift : l.scan.shift.unplaced = m.scan.shift.unplaced) :
    ∃ m', m.next = (.ok t, m') ∧ Alike l' m' ∧
      m'.cursor.rest = m.start.rest.drop m.scan.taken := by
  have hm : m.template = false := h.template ▸ hl
  rw [next_of_not_atTemplateEnd (atTemplateEnd_eq_false hl)] at hn
  obtain ⟨ht, rfl⟩ := Prod.mk.inj hn
  rw [next_of_not_atTemplateEnd (atTemplateEnd_eq_false hm), hs, ht]
  refine ⟨_, rfl, ⟨?_, h.template, ?_⟩, rfl⟩
  · have hmodes := h.modes
    simp only
    generalize l.scan.shift = a at hshift ⊢
    generalize m.scan.shift = b at hshift ⊢
    cases a with
    | stay =>
      cases b with
      | stay => exact hmodes
      | enter _ | leave => cases hshift
    | enter a =>
      cases b with
      | enter b => exact congrArg₂ List.cons (Shift.enter.inj hshift) hmodes
      | stay | leave => cases hshift
    | leave =>
      cases b with
      | leave =>
        rw [Shift.apply, Shift.apply, List.map_tail, List.map_tail, hmodes]
      | stay | enter _ => cases hshift
  · have hmode := h.mode
    simp only [regexAllowedAfter]
    generalize l.mode = a at hmode ⊢
    generalize m.mode = b at hmode ⊢
    cases a <;> cases b <;> cases hmode <;> rfl

end Alike

end Lexer

/-! ## Spellings

That a spelling is read as its operator is a fact about twenty words in front of a blank.  It is
checked for each of them, for any rest behind the blank. -/

/-- The spellings of an operator that has two. -/
def Token.spellings : Token → List String
  | and => ["&&", "and"]
  | or => ["||", "or"]
  | not => ["!", "not"]
  | compare ⟨false, .equal⟩ => ["==", "="]
  | compare ⟨true, .equal⟩ => ["-eq", "eq"]
  | compare ⟨true, .notEqual⟩ => ["-ne", "ne"]
  | compare ⟨true, .less⟩ => ["-lt", "lt"]
  | compare ⟨true, .lessEqual⟩ => ["-le", "le"]
  | compare ⟨true, .greater⟩ => ["-gt", "gt"]
  | compare ⟨true, .greaterEqual⟩ => ["-ge", "ge"]
  | _ => []

/-- A spelling in front of a blank is read as the operator, wherever a token may start. -/
theorem Scan.normal_of_spelling {t : Token} {word : String} (h : word ∈ t.spellings)
    (allowed : Bool) (start : Nat) (cs : List Char) :
    normal allowed start (word.toList ++ ' ' :: cs) = ⟨.ok t, word.toList.length, .stay⟩ := by
  rw [Token.spellings.eq_def] at h
  split at h
  case h_11 => cases h
  all_goals
    simp only [List.mem_cons, List.not_mem_nil, or_false] at h
    obtain rfl | rfl := h <;> rfl

theorem Token.ne_eof_of_spelling {t : Token} {word : String} (h : word ∈ t.spellings) :
    t ≠ .eof := by
  rintro rfl
  cases h

theorem Token.nextIs_isBlank_of_spelling {t : Token} {word : String} (h : word ∈ t.spellings)
    (cs : List Char) : nextIs isBlank (word.toList ++ cs) = false := by
  rw [Token.spellings.eq_def] at h
  split at h
  case h_11 => cases h
  all_goals
    simp only [List.mem_cons, List.not_mem_nil, or_false] at h
    obtain rfl | rfl := h <;> rfl

/-- Operators open and close nothing. -/
theorem Token.turns_of_spelling {t : Token} {word : String} (h : word ∈ t.spellings) :
    t.turns = false := by
  cases t <;> first | rfl | cases h

/-! ## Sources laid out anew

The relation comes first, then the two lemmas for the token that stays and for the one that is
spelled anew, and the induction that puts them together. -/

namespace Lexer

variable {l l' m : Lexer} {t : Token} {b e cs : List Char} {word : String}

/-- `b` is what stands before the next token, with blanks put in unless the token is inside a string
or a reference. -/
structure Widened (l : Lexer) (b : List Char) : Prop where
  sublist : l.blanks.Sublist b
  blank : ∀ c ∈ b, isBlank c = true
  inside : l.mode ≠ .normal → b = l.blanks

/-- To put in nothing is one way to put in blanks. -/
theorem widened_blanks (l : Lexer) : l.Widened l.blanks :=
  ⟨List.Sublist.refl _, fun _ ↦ isBlank_of_mem_blanks, fun _ ↦ rfl⟩

theorem Widened.snoc (hb : l.Widened b) (hm : l.mode = .normal) : l.Widened (b ++ [' ']) where
  sublist := hb.sublist.trans (List.sublist_append_left b _)
  blank c hc := (List.mem_append.1 hc).elim (hb.blank c) fun hc ↦ List.mem_singleton.1 hc ▸ rfl
  inside h := absurd hm h

theorem Widened.eq_nil (hb : l.Widened []) : l.blanks = [] := List.sublist_nil.1 hb.sublist

/-- `cs` is what the lexer has before it up to the end, with blanks put in before tokens of
conditions and before the end, and with operators spelled in another way between spaces. -/
inductive Relaid : Lexer → List Char → Prop
  | finish {l : Lexer} {b : List Char} (hn : l.next.1 = .ok .eof) (hb : l.Widened b) : Relaid l b
  | keep {l l' : Lexer} {t : Token} {b cs : List Char} (hn : l.next = (.ok t, l')) (ht : t ≠ .eof)
      (hb : l.Widened b) (h : Relaid l' cs) : Relaid l (b ++ (l.text ++ cs))
  | respell {l l' : Lexer} {t : Token} {b cs : List Char} {word : String}
      (hn : l.next = (.ok t, l')) (hm : l.mode = .normal) (hword : word ∈ t.spellings)
      (hb : l.Widened b) (h : Relaid l' cs) : Relaid l (b ++ ' ' :: (word.toList ++ ' ' :: cs))

/-- What is read to its end is one way to lay it out. -/
theorem Tokenizes.relaid {ts : List Token} (h : l.Tokenizes ts) (hl : l.template = false) :
    l.Relaid l.cursor.rest := by
  obtain ⟨l', hr, hend⟩ := h
  induction hr with
  | done l =>
    have hstart := (of_eof hl hend).2
    have hblanks := l.blanks_append_start
    rw [hstart, List.append_nil] at hblanks
    rw [← hblanks]
    exact .finish hend l.widened_blanks
  | @more l l₁ _ _ _ hn ht _ ih =>
    rw [← l.blanks_append_start, start_eq_text_append hl hn]
    exact .keep hn ht l.widened_blanks (ih (of_next hl hn).2.2.2 hend)

namespace Relaid

/-- A digit does not come to stand in front. -/
theorem nextIs_isDigit (h : l.Relaid cs) (hl : l.template = false)
    (hr : nextIs isDigit l.cursor.rest = false) : nextIs isDigit cs = false := by
  have hdigit (c : Char) : isBlank c = true → isDigit c = false := isDigit_of_isBlank
  cases h with
  | finish _ hb =>
    rw [← List.append_nil cs]
    exact nextIs_append_of_blank hb.blank hdigit rfl
  | @keep _ l' t b cs hn ht hb _ =>
    cases b with
    | cons c b => exact isDigit_of_isBlank (hb.blank c List.mem_cons_self)
    | nil =>
      rw [← l.blanks_append_start, hb.eq_nil, start_eq_text_append hl hn] at hr
      exact (nextIs_append (text_ne_nil hl hn ht) _ _ _).trans hr
  | respell _ _ _ hb _ => exact nextIs_append_of_blank hb.blank hdigit rfl

/-- **What is laid out anew goes on with the token before it only where the original does.**  New
blanks go on with nothing, and neither does an operator behind a blank.  Where nothing is put in,
the next token stands right behind, as it did. -/
theorem replaces (h : l.Relaid cs) (hl : l.template = false) :
    l.mode.Replaces l.cursor.rest cs := by
  cases h with
  | finish hn hb =>
    rw [(of_eof hl hn).1, ← List.append_nil cs]
    refine Loose.of_soft (nextIs_append_of_blank hb.blank (fun c hc ↦ ?_) rfl)
    rw [hc]
    rfl
  | @keep _ l' t b cs hn ht hb h' =>
    have hrest : l.cursor.rest = l.blanks ++ l.text ++ l'.cursor.rest := by
      rw [List.append_assoc, ← start_eq_text_append hl hn, blanks_append_start]
    by_cases hsame : b = l.blanks
    · -- nothing is put in, so the token stands where it stood, and so does what is put in behind it
      rw [hsame, hrest, ← List.append_assoc]
      exact replaces_of_next hl hn ht hrest (List.prefix_refl _)
        (h'.nextIs_isDigit (of_next hl hn).2.2.2)
    · have hm : l.mode = .normal := not_imp_comm.1 hb.inside hsame
      obtain ⟨c, b, rfl⟩ := List.exists_cons_of_ne_nil fun hnil ↦
        hsame (hnil.trans (hnil ▸ hb).eq_nil.symm)
      rw [hm]
      exact Loose.of_soft (Soft.cons_iff.2 (hb.blank c List.mem_cons_self))
  | respell _ hm _ hb _ =>
    rw [hm]
    refine Loose.of_soft (nextIs_append_of_blank hb.blank (fun c hc ↦ ?_) rfl)
    rw [hc]
    rfl

end Relaid

/-- A token that stays is read again, by a lexer in the same modes. -/
theorem Alike.keep (h : Alike l m) (hl : l.template = false) (hn : l.next = (.ok t, l'))
    (ht : t ≠ .eof) (hcs : l'.mode.Replaces l'.cursor.rest cs)
    (hstart : m.start.rest = l.text ++ cs) :
    ∃ m', m.next = (.ok t, m') ∧ Alike l' m' ∧ m'.cursor.rest = cs := by
  have hs := (of_next hl hn).1
  have hr := start_eq_text_append hl hn
  have htext := text_ne_nil hl hn ht
  have hreplaces (hstay : l.scan.shift = .stay) : l.mode.Replaces l'.cursor.rest cs := by
    rwa [← mode_eq_of_stay hl hn hstay]
  -- in between stands the lexer at the old place in front of the new rest
  have hscan : l.scan.unplaced = m.scan.unplaced := by
    rw [← scan_withRest hs hr htext l.length_text.symm hreplaces]
    refine (h.withRest _).scan ?_
    rw [start_withRest (starts_append hr htext cs), hstart]
  obtain ⟨hanswer, htaken, hshift⟩ : l.scan.outcome.mapError LexError.cause =
      m.scan.outcome.mapError LexError.cause ∧ l.scan.taken = m.scan.taken ∧
      l.scan.shift.unplaced = m.scan.shift.unplaced := by
    simpa only [Scan.unplaced, Prod.mk.injEq] using hscan
  have hs' : m.scan.outcome = .ok t := by
    rw [hs] at hanswer
    generalize m.scan.outcome = x at hanswer ⊢
    cases x with
    | ok u => exact congrArg Except.ok (Except.ok.inj hanswer).symm
    | error e => cases hanswer
  obtain ⟨m', hn', halike, hr'⟩ := h.next hl hn hs' hshift
  refine ⟨m', hn', halike, ?_⟩
  rw [hr', ← htaken, hstart, ← length_text, List.drop_left]

/-- An operator is read in another spelling, by a lexer in the same modes. -/
theorem Alike.respell (h : Alike l m) (hl : l.template = false) (hn : l.next = (.ok t, l'))
    (hm : l.mode = .normal) (hword : word ∈ t.spellings)
    (hstart : m.start.rest = word.toList ++ ' ' :: cs) :
    l'.mode = .normal ∧ ∃ m', m.next = (.ok t, m') ∧ Alike l' m' ∧
      m'.cursor.rest = ' ' :: cs := by
  have hstay : l.scan.shift = .stay :=
    (scan_guided (of_next hl hn).1).eq_stay (Token.turns_of_spelling hword)
  have hscan : m.scan = ⟨.ok t, word.toList.length, .stay⟩ := by
    rw [Lexer.scan, h.mode_normal hm, hstart]
    exact Scan.normal_of_spelling hword _ _ _
  obtain ⟨m', hn', halike, hr'⟩ := h.next hl hn (by rw [hscan]) (by rw [hscan, hstay])
  refine ⟨(mode_eq_of_stay hl hn hstay).trans hm, m', hn', halike, ?_⟩
  rw [hr', hstart, hscan, List.drop_left]

/-- The next token starts behind what is put in before it, and behind more blanks `e` in a
condition. -/
theorem Alike.start_rest {y : List Char} (h : Alike l m) (hb : l.Widened b)
    (he : ∀ c ∈ e, isBlank c = true) (hmode : e ≠ [] → l.mode = .normal)
    (hr : m.cursor.rest = e ++ (b ++ y)) (hy : l.Starts y) : m.start.rest = y := by
  rw [← List.append_assoc] at hr
  refine start_of_blanks ?_ hr ?_ fun quote opened hm ↦ ?_
  · exact fun c hc ↦ (List.mem_append.1 hc).elim (he c) (hb.blank c)
  · intro hm
    refine hy fun quote opened hl ↦ ?_
    obtain ⟨opened', hm'⟩ := h.symm.mode_string hl
    exact hm _ _ hm'
  · obtain ⟨opened', hl⟩ := h.mode_string hm
    have hnormal : l.mode ≠ .normal := by simp [hl]
    rw [not_imp_comm.1 hmode hnormal, hb.inside hnormal, blanks_of_string hl, List.append_nil]

/-- **The tokens of a source are read from it however it is laid out**, and behind blanks `e` where
a condition goes on.  The induction is on how it is laid out.  The blank that is put behind a word
for an operator is what `e` is for: it belongs to the tokens behind. -/
theorem Relaid.tokenizes (h : l.Relaid cs) (hl : l.template = false) (halike : Alike l m)
    (he : ∀ c ∈ e, isBlank c = true) (hmode : e ≠ [] → l.mode = .normal)
    (hr : m.cursor.rest = e ++ cs) : ∃ ts, l.Tokenizes ts ∧ m.Tokenizes ts := by
  induction h generalizing m e with
  | @finish l b hn hb =>
    have hm : l.mode = .normal := (of_eof hl hn).1
    have hstart : m.start.rest = [] :=
      halike.start_rest hb he hmode (by rw [hr, List.append_nil]) fun _ ↦ rfl
    exact ⟨[], ⟨l, .done l, hn⟩, m, .done m,
      next_eq_eof_iff.2 (.inr ⟨halike.mode_normal hm, hstart⟩)⟩
  | @keep l l' t b cs hn ht hb h ih =>
    have hl' := (of_next hl hn).2.2.2
    have hstart : m.start.rest = l.text ++ cs :=
      halike.start_rest hb he hmode hr
        (starts_append (start_eq_text_append hl hn) (text_ne_nil hl hn ht) cs)
    obtain ⟨m', hn', halike', hr'⟩ := halike.keep hl hn ht (h.replaces hl') hstart
    obtain ⟨ts, ⟨l₂, hreads, hend⟩, m₂, hreads', hend'⟩ :=
      ih hl' halike' (e := []) nofun (absurd rfl) hr'
    exact ⟨t :: ts, ⟨l₂, .more hn ht hreads, hend⟩, m₂, .more hn' ht hreads', hend'⟩
  | @respell l l' t b cs word hn hm hword hb h ih =>
    have hl' := (of_next hl hn).2.2.2
    have ht := Token.ne_eof_of_spelling hword
    have hstart : m.start.rest = word.toList ++ ' ' :: cs := by
      refine halike.start_rest (hb.snoc hm) he hmode ?_
        fun _ ↦ Token.nextIs_isBlank_of_spelling hword _
      rw [hr, List.append_assoc, List.singleton_append]
    obtain ⟨hm', m', hn', halike', hr'⟩ := halike.respell hl hn hm hword hstart
    obtain ⟨ts, ⟨l₂, hreads, hend⟩, m₂, hreads', hend'⟩ :=
      ih hl' halike' (List.forall_mem_singleton.2 rfl) (fun _ ↦ hm') hr'
    exact ⟨t :: ts, ⟨l₂, .more hn ht hreads, hend⟩, m₂, .more hn' ht hreads', hend'⟩

end Lexer

namespace Expression

/-- **Neither layout nor the spelling of operators changes what a condition means**: a source laid
out anew has the same tokens, and it is read into the same tree or is wrong in the same way. -/
theorem parse_relaid {source source' : String}
    (h : (Lexer.condition source).Relaid source'.toList) (options : ParseOptions) :
    (∃ ts, (Lexer.condition source).Tokenizes ts ∧ (Lexer.condition source').Tokenizes ts) ∧
      Agree (parse source options) (parse source' options) := by
  obtain ⟨ts, hts, hts'⟩ := h.tokenizes rfl (m := .condition source') (e := [])
    ⟨rfl, rfl, rfl⟩ nofun (absurd rfl) rfl
  exact ⟨⟨ts, hts, hts'⟩, parse_agree hts hts' options⟩

/-- A word with a negation in its two spellings. -/
theorem parse_relaid_negation : (Lexer.condition "!a").Relaid " not  a ".toList ∧
    Agree (parse "!a") (parse " not  a ") := by
  have h : (Lexer.condition "!a").Relaid " not  a ".toList := by
    have hword : "not" ∈ Token.not.spellings := by decide
    refine .respell (b := []) rfl rfl hword ⟨List.Sublist.refl _, nofun, fun _ ↦ rfl⟩ ?_
    refine .keep (t := .identifier "a") (b := [' ']) rfl (by simp)
      ⟨List.nil_sublist _, List.forall_mem_singleton.2 rfl, fun h ↦ absurd rfl h⟩ ?_
    exact .finish rfl ⟨List.nil_sublist _, List.forall_mem_singleton.2 rfl, fun h ↦ absurd rfl h⟩
  exact ⟨h, (parse_relaid h _).2⟩

end Expression

end RequestCondition

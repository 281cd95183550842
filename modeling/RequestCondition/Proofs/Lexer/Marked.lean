import RequestCondition.Proofs.Lexer.Layout
import RequestCondition.Proofs.Lexer.RegexLiteral

/-!
# Words that could be literals

An `m` before a delimiter opens a regex literal behind some tokens, and is a word behind the others.
So what a source goes on with may be read in two ways, according to the token before it.
`Lexer.forbid` is the lexer that takes the second way where the first is open.

Both ways are the same unless the next token starts with such an `m` (`Scan.normal_forbid`).  If it
does, and no literal comes of it because its delimiter does not come again, then the first way ends
in an error, and the second one leads to a word with a token behind it that no condition goes on
with (`Lexer.tokenizes_forbid`).

The last step goes through the seven delimiters.  Four of them start no token at all.  A bar starts
one only with a second bar behind it, but then it has come again.  What is left are a comma, and an
exclamation mark, which may be the start of a comparison.  None of these is among the tokens that
can stand behind a word which is the last operand of a comparison (`Token.followsWord`).  So the
source is no condition in either of the two ways.

Where the delimiter does come again a literal is read, and the two ways do differ.  That case is
excluded by a hypothesis, and it is dealt with where two conditions are compared that have such
literals in them.
-/

set_option autoImplicit false

namespace RequestCondition

/-- Whether a token can stand behind a word that starts the last operand of a comparison. -/
def Token.followsWord : Token → Bool
  | lparen | dot | and | or => true
  | _ => false

/-! ## One token in two ways

Here only a scan is looked at.  The question is what becomes of an `m` and of the character behind
it, if the one is taken as a word. -/

namespace Scan

variable {allowed : Bool} {start : Nat} {d : Char} {body : List Char} {t : Token}

/-- Whether a literal with a delimiter of its own may come makes a difference at an `m` before a
delimiter only. -/
theorem normal_forbid (start : Nat) (cs : List Char) :
    normal false start cs = normal true start cs ∨
      ∃ d body, d ∈ regexDelimiters ∧ cs = 'm' :: d :: body := by
  match cs with
  | [] => exact .inl rfl
  | c :: cs =>
    by_cases hm : c = 'm' ∧ nextIs regexDelimiters.contains cs = true
    · obtain ⟨rfl, hd⟩ := hm
      cases cs with
      | nil => cases hd
      | cons d body => exact .inr ⟨d, body, List.contains_iff_mem.1 hd, rfl⟩
    · left
      have hfalse : ¬ (c = 'm' ∧ false = true ∧ nextIs regexDelimiters.contains cs = true) :=
        fun h ↦ Bool.false_ne_true h.2.1
      have htrue : ¬ (c = 'm' ∧ true = true ∧ nextIs regexDelimiters.contains cs = true) :=
        fun h ↦ hm ⟨h.1, h.2.2⟩
      rw [normal, normal, if_neg hfalse, if_neg htrue]

/-- A word ends in front of a delimiter. -/
theorem not_isWordChar_of_delimiter (hd : d ∈ regexDelimiters) : isWordChar d = false := by
  have hall : regexDelimiters.all (!isWordChar ·) = true := rfl
  simpa using List.all_eq_true.1 hall d hd

/-- Where no such literal may come, an `m` before a delimiter is a word. -/
theorem normal_of_mark (hd : d ∈ regexDelimiters) :
    normal false start ('m' :: d :: body) = ⟨.ok (.identifier "m"), 1, .stay⟩ := by
  have hword : ('m' :: d :: body).takeWhile isWordChar = ['m'] :=
    takeWhile_append_eq (a := ['m']) (List.forall_mem_singleton.2 (by decide))
      (not_isWordChar_of_delimiter hd)
  rw [normal_of_isWordStart (by decide), plain_of_word (by decide) (by simp), hword]
  rfl

/-- What a delimiter is on its own: a sign, or nothing that a token starts with. -/
theorem sign_of_delimiter (hd : d ∈ regexDelimiters)
    (h : (normal allowed start (d :: body)).outcome = .ok t) :
    ∃ n, signAt? (fun c ↦ nextIs (· == c) body) d = some (t, n) := by
  rw [← sign?_cons]
  rw [mem_regexDelimiters_iff] at hd
  cases hs : sign? (d :: body) with
  | some r =>
    rw [normal] at h
    obtain rfl | rfl | rfl | rfl | rfl | rfl | rfl := hd <;>
      simp only [hs] at h <;> exact ⟨r.2, by rw [← Except.ok.inj h]⟩
  | none =>
    rw [normal] at h
    obtain rfl | rfl | rfl | rfl | rfl | rfl | rfl := hd <;> simp only [hs] at h <;> cases h

/-- A delimiter that does not come again starts no operator that joins operands. -/
theorem normal_of_delimiter (hd : d ∈ regexDelimiters) (hbody : regexBody d body = none)
    (h : (normal allowed start (d :: body)).outcome = .ok t) :
    t ≠ .eof ∧ t.followsWord = false := by
  obtain ⟨n, hsign⟩ := sign_of_delimiter hd h
  have hbar (hnext : nextIs (· == d) body = true) : False := by
    cases body with
    | nil => cases hnext
    | cons c cs =>
      obtain rfl : c = d := beq_iff_eq.1 hnext
      rw [regexBody.eq_def] at hbody
      simp at hbody
  rw [mem_regexDelimiters_iff] at hd
  obtain rfl | rfl | rfl | rfl | rfl | rfl | rfl := hd
  case inr.inl =>
    rw [signAt?, if_neg hbar] at hsign
    cases hsign
  case inr.inr.inl =>
    rw [signAt?] at hsign
    repeat' split at hsign
    all_goals
      cases hsign
      exact ⟨by simp, rfl⟩
  case inr.inr.inr.inl =>
    cases hsign
    exact ⟨by simp, rfl⟩
  all_goals cases hsign

end Scan

/-! ## Reading on

A lexer reads to the end of its source in one way at most (`Tokenizes.unique`), and what it reads
can be told from its first token and what the next lexer reads. -/

namespace Lexer

variable {l l' m : Lexer} {ts us : List Token} {t : Token}

theorem tokenizes_congr (h : l.next = m.next) (hts : l.Tokenizes ts) : m.Tokenizes ts := by
  obtain ⟨l', hr, hend⟩ := hts
  cases hr with
  | done _ => exact ⟨m, .done m, h ▸ hend⟩
  | more hn ht hr => exact ⟨l', .more (h ▸ hn) ht hr, hend⟩

/-- A source that is read to its end has no error in front. -/
theorem Tokenizes.exists_next (h : l.Tokenizes ts) : ∃ t, l.next.1 = .ok t := by
  obtain ⟨l', hr, hend⟩ := h
  cases hr with
  | done _ => exact ⟨_, hend⟩
  | more hn _ _ => exact ⟨_, congrArg Prod.fst hn⟩

/-- A source is read to its end from behind its first token. -/
theorem tokenizes_cons_iff (hn : l.next = (.ok t, l')) (ht : t ≠ .eof) :
    l.Tokenizes ts ↔ ∃ us, ts = t :: us ∧ l'.Tokenizes us := by
  constructor
  · rintro ⟨l₂, hr, hend⟩
    cases hr with
    | done _ =>
      rw [hn] at hend
      exact absurd (Except.ok.inj hend) ht
    | more hn' _ hr =>
      rw [hn] at hn'
      obtain ⟨ht', rfl⟩ := Prod.mk.inj hn'
      obtain rfl := Except.ok.inj ht'
      exact ⟨_, rfl, l₂, hr, hend⟩
  · rintro ⟨us, rfl, l₂, hr, hend⟩
    exact ⟨l₂, .more hn ht hr, hend⟩

/-- Behind tokens that have been read come the other tokens of the source. -/
theorem Reads.tokenizes_iff (h : l.Reads us l') :
    l.Tokenizes ts ↔ ∃ vs, ts = us ++ vs ∧ l'.Tokenizes vs := by
  induction h generalizing ts with
  | done l => simp
  | @more l l₁ l₂ t us hn ht _ ih =>
    rw [tokenizes_cons_iff hn ht]
    constructor
    · rintro ⟨us, rfl, hus⟩
      obtain ⟨vs, rfl, hvs⟩ := ih.1 hus
      exact ⟨vs, rfl, hvs⟩
    · rintro ⟨vs, rfl, hvs⟩
      exact ⟨_, rfl, ih.2 ⟨vs, rfl, hvs⟩⟩

/-- **A source has one list of tokens.** -/
theorem Tokenizes.unique (h : l.Tokenizes ts) (h' : l.Tokenizes us) : ts = us := by
  obtain ⟨l', hr, hend⟩ := h
  obtain ⟨vs, rfl, l₂, hr', -⟩ := hr.tokenizes_iff.1 h'
  cases hr' with
  | done _ => exact (List.append_nil ts).symm
  | more hn ht _ =>
    rw [hn] at hend
    exact absurd (Except.ok.inj hend) ht

/-- Lexers in the same modes read the same tokens from the same text. -/
theorem Alike.tokenizes (h : Alike l m) (hl : l.template = false)
    (hr : m.cursor.rest = l.cursor.rest) (hts : l.Tokenizes ts) : m.Tokenizes ts := by
  obtain ⟨us, hus, hm⟩ := (hts.relaid hl).tokenizes hl h (e := []) nofun (absurd rfl) hr
  rwa [hts.unique hus]

/-- The lexer that may not read a literal with a delimiter of its own next. -/
def forbid (l : Lexer) : Lexer := { l with regexAllowed := false }

/-- What may come next makes no difference behind a token. -/
theorem next_forbid (hl : l.template = false) (hm : l.mode = .normal)
    (hscan : l.forbid.scan = l.scan) (ht : l.scan.outcome = .ok t) : l.forbid.next = l.next := by
  have hmode : l.forbid.mode = .normal := hm
  rw [next_of_not_atTemplateEnd (atTemplateEnd_eq_false hl),
    next_of_not_atTemplateEnd (l := l.forbid) (atTemplateEnd_eq_false hl), hscan, ht]
  simp only [regexAllowedAfter, hm, hmode]
  rfl

theorem scan_of_mode_normal (hm : l.mode = .normal) :
    l.scan = Scan.normal l.regexAllowed l.start.offset l.start.rest := by
  rw [scan, hm]

theorem next_eq_scan_outcome (hl : l.template = false) : l.next.1 = l.scan.outcome := by
  rw [next_of_not_atTemplateEnd (atTemplateEnd_eq_false hl)]

/-- A delimiter in front that does not come again is no operator that joins operands. -/
theorem Tokenizes.of_delimiter {d : Char} {body : List Char} (h : l.Tokenizes ts)
    (hl : l.template = false) (hm : l.mode = .normal) (hd : d ∈ regexDelimiters)
    (hbody : regexBody d body = none) (hr : l.cursor.rest = d :: body) :
    ∃ t us, ts = t :: us ∧ t.followsWord = false := by
  have hall : regexDelimiters.all (!isBlank ·) = true := rfl
  have hblank : isBlank d = false := by simpa using List.all_eq_true.1 hall d hd
  have hstart : l.start.rest = d :: body :=
    start_of_blanks (b := []) nofun hr (fun _ ↦ hblank) fun _ _ _ ↦ rfl
  have htoken {t : Token} (ht : l.next.1 = .ok t) :
      t ≠ .eof ∧ t.followsWord = false := by
    rw [next_eq_scan_outcome hl, scan_of_mode_normal hm, hstart] at ht
    exact Scan.normal_of_delimiter hd hbody ht
  obtain ⟨l', hreads, hend⟩ := h
  cases hreads with
  | done _ => exact absurd rfl (htoken hend).1
  | more hn _ _ => exact ⟨_, _, rfl, (htoken (congrArg Prod.fst hn)).2⟩

/-- If no regex literal comes next, it does not matter that one with a delimiter of its own may
come, but for one case: an `m` before a delimiter that does not come again is a word if none may,
and an operator that joins operands does not follow it. -/
theorem tokenizes_forbid (hl : l.template = false) (hm : l.mode = .normal)
    (hallowed : l.regexAllowed = true)
    (hregex : ∀ pattern flag, l.next.1 ≠ .ok (.regex pattern flag)) :
    (∀ ts, l.Tokenizes ts ↔ l.forbid.Tokenizes ts) ∨
      (∀ ts, ¬ l.Tokenizes ts) ∧ ∀ ts, l.forbid.Tokenizes ts → ∃ t us,
        ts = .identifier "m" :: t :: us ∧ t.followsWord = false := by
  have hl' : l.forbid.template = false := hl
  have hm' : l.forbid.mode = .normal := hm
  obtain hsame | ⟨d, body, hd, hr⟩ := Scan.normal_forbid l.start.offset l.start.rest
  · have hscan : l.forbid.scan = l.scan := by
      rw [scan_of_mode_normal hm, scan_of_mode_normal hm', hallowed, ← hsame]
      rfl
    refine .inl fun ts ↦ ⟨fun h ↦ ?_, fun h ↦ ?_⟩ <;> obtain ⟨t, ht⟩ := h.exists_next
    · rw [next_eq_scan_outcome hl] at ht
      exact tokenizes_congr (next_forbid hl hm hscan ht).symm h
    · rw [next_eq_scan_outcome hl', hscan] at ht
      exact tokenizes_congr (next_forbid hl hm hscan ht) h
  · have hscan : l.scan = Scan.regex l.start.offset 2 d body := by
      rw [scan_of_mode_normal hm, hr, hallowed]
      exact Scan.normal_of_opens (.letter rfl hd) _ body
    have hbody : regexBody d body = none := by
      rw [Option.eq_none_iff_forall_ne_some]
      intro (pattern, n) h
      rw [next_eq_scan_outcome hl, hscan, Scan.regex, h] at hregex
      exact hregex _ _ rfl
    refine .inr ⟨fun ts h ↦ ?_, fun ts h ↦ ?_⟩
    · obtain ⟨t, ht⟩ := h.exists_next
      rw [next_eq_scan_outcome hl, hscan, Scan.regex, hbody] at ht
      cases ht
    · obtain ⟨l', hn, hr', hmodes, hl'⟩ := next_of_normal (l := l.forbid) hl' hm'
        (by change Scan.normal false _ l.start.rest = _; rw [hr]; exact Scan.normal_of_mark hd)
      obtain ⟨us, rfl, hus⟩ := (tokenizes_cons_iff hn (by simp)).1 h
      have hrest : l'.cursor.rest = d :: body := hr'.trans (congrArg (List.drop 1) hr)
      have hmode : l'.mode = .normal := by rw [mode, hmodes]; exact hm
      obtain ⟨t, us, rfl, ht⟩ := hus.of_delimiter hl' hmode hd hbody hrest
      exact ⟨t, us, rfl, ht⟩

end Lexer

end RequestCondition

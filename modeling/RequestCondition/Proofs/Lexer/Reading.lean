import Mathlib.Data.List.Basic
import RequestCondition.Proofs.Lexer.Answer

/-!
# What a lexer reads

`Lexer.next` is asked for one token at a time.  `Lexer.Reads l ts l'` says that asking again and
again gives the tokens `ts` and leads to `l'`, and `Lexer.Tokenizes l ts` that nothing but the end
of the source follows them.

Asking again makes sense because every answer but a last one moves on: a token takes a character at
least (`Lexer.scan_ok`), and an error that takes none comes again, as the end of the source does.
So listing the answers once and for all loses nothing: `stream_next` says that the stream of a lexer
gives the answers that the lexer itself would give.

The list is made with a bound on its length, and two facts justify the bound.

* An answer that does not repeat uses up a character (`length_lt_of_not_repeats`).  So the bound is
  never reached before an answer repeats, and any bound that is large enough gives the same list
  (`collect_eq_collect`).
* An answer that repeats does so for ever, at the same place (`Repeats.again`).  Behind an error a
  lexer may differ from what it was, though in nothing that the next answer depends on; `next_congr`
  says what that is.

With this, what parsers read from streams is turned into what they read from lexers.  Streams do not
come up again later on.
-/

set_option autoImplicit false

namespace RequestCondition

/-! ## Moving through a source

A cursor only ever moves on by a number of characters.  It comes back to the same offset if that
number is zero or nothing is left, so the test on offsets that `collect` makes is a test for
progress. -/

namespace Cursor

/-- To skip blanks is to move on by their number. -/
theorem skipBlanks_eq_past (c : Cursor) :
    c.skipBlanks = c.past (c.rest.takeWhile isBlank).length := by
  have h : c.rest.takeWhile isBlank ++ c.rest.dropWhile isBlank = c.rest :=
    List.takeWhile_append_dropWhile
  have htake : c.rest.take (c.rest.takeWhile isBlank).length = c.rest.takeWhile isBlank := by
    conv_lhs => rw [← h]
    exact List.take_left' (by rw [h])
  have hdrop : c.rest.drop (c.rest.takeWhile isBlank).length = c.rest.dropWhile isBlank := by
    conv_lhs => rw [← h]
    exact List.drop_left' (by rw [h])
  rw [skipBlanks, past, htake, hdrop]

/-- Moving on takes a character off the rest, unless it does nothing. -/
theorem past_eq_self_or_lt (c : Cursor) (n : Nat) :
    c.past n = c ∨ (c.past n).offset ≠ c.offset ∧ (c.past n).rest.length < c.rest.length := by
  cases n with
  | zero => exact .inl c.past_zero
  | succ n =>
    obtain ⟨offset, rest⟩ := c
    cases rest with
    | nil => exact .inl rfl
    | cons x xs =>
      refine .inr ⟨?_, ?_⟩
      · have := x.utf8Size_pos
        simp only [past, List.take_succ_cons, utf8Length_cons]
        omega
      · simp only [past, List.drop_succ_cons, List.length_drop, List.length_cons]
        omega

theorem past_eq_self_of_offset {c : Cursor} {n : Nat} (h : (c.past n).offset = c.offset) :
    c.past n = c :=
  (c.past_eq_self_or_lt n).resolve_right fun h' ↦ h'.1 h

theorem length_past_le (c : Cursor) (n : Nat) : (c.past n).rest.length ≤ c.rest.length := by
  rw [past, List.length_drop]
  exact Nat.sub_le _ _

theorem length_past_lt {c : Cursor} {n : Nat} (h : c.rest ≠ []) (hn : 0 < n) :
    (c.past n).rest.length < c.rest.length := by
  have := List.length_pos_iff.2 h
  rw [past, List.length_drop]
  omega

end Cursor

/-! ## Reading one token

`next` has two cases, the end of a template and a scan.  They are kept apart by equations, for use
where it is known which of them applies. -/

namespace Lexer

variable {l l' : Lexer} {t : Token} {e : LexError}

theorem next_of_atTemplateEnd (h : l.atTemplateEnd = true) :
    l.next = (.ok .eof, { l with tokenStart := l.cursor.offset }) := by
  rw [next, if_pos h]

theorem next_of_not_atTemplateEnd (h : l.atTemplateEnd = false) :
    l.next = (l.scan.outcome,
      { l with
        cursor := l.start.past l.scan.taken
        tokenStart := l.start.offset
        modes := l.scan.shift.apply l.modes
        regexAllowed := l.regexAllowedAfter l.scan.outcome }) := by
  rw [next, if_neg (by simp [h])]

theorem start_eq_past (l : Lexer) : ∃ n, l.start = l.cursor.past n := by
  rw [start]
  split
  · exact ⟨0, l.cursor.past_zero.symm⟩
  · exact ⟨_, l.cursor.skipBlanks_eq_past⟩

/-- Reading a token moves through the source. -/
theorem next_cursor (l : Lexer) : ∃ n, l.next.2.cursor = l.cursor.past n := by
  cases h : l.atTemplateEnd with
  | true =>
    rw [next_of_atTemplateEnd h]
    exact ⟨0, l.cursor.past_zero.symm⟩
  | false =>
    obtain ⟨n, hn⟩ := l.start_eq_past
    rw [next_of_not_atTemplateEnd h, hn]
    exact ⟨_, l.cursor.past_past n _⟩

/-- The end of the source is reported between tokens, where nothing is left, and where a template
ends. -/
theorem next_eq_eof_iff : l.next.1 = .ok .eof ↔
    l.atTemplateEnd = true ∨ l.mode = .normal ∧ l.start.rest = [] := by
  cases h : l.atTemplateEnd with
  | true =>
    rw [next_of_atTemplateEnd h]
    exact ⟨fun _ ↦ .inl rfl, fun _ ↦ rfl⟩
  | false =>
    rw [next_of_not_atTemplateEnd h]
    constructor
    · intro ht
      obtain ⟨-, hend⟩ | ⟨ht, -⟩ := scan_ok ht
      · exact .inr hend
      · exact absurd rfl ht
    · rintro (h | ⟨hm, hr⟩)
      · cases h
      · change l.scan.outcome = _
        rw [scan, hm, hr]
        rfl

/-- A token takes a character. -/
theorem length_lt_of_next (h : l.next = (.ok t, l')) (ht : t ≠ .eof) :
    l'.cursor.rest.length < l.cursor.rest.length := by
  cases hend : l.atTemplateEnd with
  | true =>
    rw [next_of_atTemplateEnd hend] at h
    obtain ⟨ht', -⟩ := Prod.mk.inj h
    exact absurd (Except.ok.inj ht').symm ht
  | false =>
    rw [next_of_not_atTemplateEnd hend] at h
    obtain ⟨hs, rfl⟩ := Prod.mk.inj h
    obtain ⟨n, hn⟩ := l.start_eq_past
    obtain ⟨rfl, -⟩ | ⟨-, hr, htaken⟩ := scan_ok hs
    · exact absurd rfl ht
    · have hle := l.cursor.length_past_le n
      rw [← hn] at hle
      exact Nat.lt_of_lt_of_le (Cursor.length_past_lt hr htaken) hle

/-! ## Answers that repeat

An answer of the lexer depends on four of its parts, and two of these do not matter where the answer
is an error or the end. -/

theorem start_of_nil (h : l.cursor.rest = []) : l.start = l.cursor := by
  have hblank : l.cursor.skipBlanks = l.cursor := by
    rw [Cursor.skipBlanks_eq_past, h]
    exact l.cursor.past_zero
  rw [start]
  split
  · rfl
  · exact hblank

/-- Where nothing is left, and no string or reference is open that needs to be closed, the end is
at the cursor. -/
theorem next_of_nil (hr : l.cursor.rest = []) (h : l.atTemplateEnd = true ∨ l.mode = .normal) :
    l.next.1 = .ok .eof ∧ l.next.2.tokenStart = l.cursor.offset := by
  refine ⟨next_eq_eof_iff.2 (h.imp_right fun hm ↦ ⟨hm, by rw [start_of_nil hr, hr]⟩), ?_⟩
  cases hend : l.atTemplateEnd with
  | true => rw [next_of_atTemplateEnd hend]
  | false =>
    rw [next_of_not_atTemplateEnd hend]
    exact congrArg Cursor.offset (start_of_nil hr)

/-- At the end of the source the lexer says so again, and at the same place. -/
theorem next_again_of_eof (h : l.next = (.ok .eof, l')) :
    l'.next.1 = .ok .eof ∧ l'.next.2.tokenStart = l'.tokenStart := by
  cases hend : l.atTemplateEnd with
  | true =>
    rw [next_of_atTemplateEnd hend] at h
    obtain ⟨-, rfl⟩ := Prod.mk.inj h
    refine next_of_nil ?_ (.inl hend)
    rw [atTemplateEnd, Bool.and_eq_true, List.isEmpty_iff] at hend
    exact hend.2
  | false =>
    have hn := next_eq_eof_iff.1 (congrArg Prod.fst h)
    rw [hend] at hn
    obtain ⟨hm, hr⟩ := hn.resolve_left Bool.false_ne_true
    have hs : l.scan = ⟨.ok .eof, 0, .stay⟩ := by
      rw [scan, hm, hr]
      rfl
    rw [next_of_not_atTemplateEnd hend, hs, Cursor.past_zero] at h
    obtain ⟨-, rfl⟩ := Prod.mk.inj h
    exact next_of_nil hr (.inr hm)

/-- What the lexer answers depends on the place, on the modes and, in a condition, on whether a
regex may come. -/
theorem next_congr (hc : l'.cursor = l.cursor) (hm : l'.modes = l.modes)
    (ht : l'.template = l.template) (hr : l.mode = .normal → l'.regexAllowed = l.regexAllowed) :
    l'.next.1 = l.next.1 ∧ l'.next.2.cursor = l.next.2.cursor ∧
      l'.next.2.tokenStart = l.next.2.tokenStart := by
  have hmode : l'.mode = l.mode := by rw [mode, mode, hm]
  have hend : l'.atTemplateEnd = l.atTemplateEnd := by
    rw [atTemplateEnd, atTemplateEnd, hc, hm, ht]
  have hstart : l'.start = l.start := by rw [start, start, hc, hmode]
  have hscan : l'.scan = l.scan := by
    rw [scan, scan, hmode, hstart]
    split
    · rw [hr ‹_›]
    · rfl
    · rfl
  cases h : l.atTemplateEnd with
  | true =>
    rw [next_of_atTemplateEnd h, next_of_atTemplateEnd (hend.trans h)]
    exact ⟨rfl, hc, congrArg Cursor.offset hc⟩
  | false =>
    rw [next_of_not_atTemplateEnd h, next_of_not_atTemplateEnd (hend.trans h), hscan, hstart]
    exact ⟨rfl, rfl, rfl⟩

/-- At an error that it does not move past the lexer reports it again, and at the same place. -/
theorem next_again_of_error (h : l.next = (.error e, l'))
    (hoff : l'.cursor.offset = l.cursor.offset) :
    l'.next.1 = .error e ∧ l'.next.2.cursor.offset = l'.cursor.offset ∧
      l'.next.2.tokenStart = l'.tokenStart := by
  have hcursor : l'.cursor = l.cursor := by
    obtain ⟨n, hn⟩ := l.next_cursor
    rw [h] at hn
    rw [hn] at hoff ⊢
    exact Cursor.past_eq_self_of_offset hoff
  have hrest : l'.modes = l.modes ∧ l'.template = l.template ∧
      (l.mode = .normal → l'.regexAllowed = l.regexAllowed) := by
    cases hend : l.atTemplateEnd with
    | true =>
      rw [next_of_atTemplateEnd hend] at h
      cases h
    | false =>
      rw [next_of_not_atTemplateEnd hend] at h
      obtain ⟨hs, rfl⟩ := Prod.mk.inj h
      refine ⟨by simp only [scan_error hs, Shift.apply], rfl, fun hm ↦ ?_⟩
      simp only [regexAllowedAfter, hm, hs]
  have hagain := next_congr hcursor hrest.1 hrest.2.1 hrest.2.2
  rw [h] at hagain
  exact ⟨hagain.1, (congrArg Cursor.offset hagain.2.1), hagain.2.2⟩

/-! ## The stream gives the answers of the lexer

An induction on the characters that are left, with the two bounds kept apart: the list for `l` and
the one for the lexer behind it are made with different bounds. -/

/-- Whether the next answer is the end of the source, or an error that is not moved past. -/
def Repeats (l : Lexer) : Prop :=
  l.next.1 = .ok .eof ∨ (∃ e, l.next.1 = .error e) ∧ l.next.2.cursor.offset = l.cursor.offset

/-- **What repeats goes on to repeat**, with the same answer at the same place. -/
theorem Repeats.again (h : l.Repeats) : l.next.2.Repeats ∧ l.next.2.next.1 = l.next.1 ∧
    l.next.2.next.2.tokenStart = l.next.2.tokenStart := by
  obtain h | ⟨⟨e, h⟩, hoff⟩ := h
  · obtain ⟨ht, hstart⟩ := next_again_of_eof (Prod.ext h rfl : l.next = (_, l.next.2))
    exact ⟨.inl ht, ht.trans h.symm, hstart⟩
  · obtain ⟨he, hoff', hstart⟩ :=
      next_again_of_error (Prod.ext h rfl : l.next = (_, l.next.2)) hoff
    exact ⟨.inr ⟨⟨e, he⟩, hoff'⟩, he.trans h.symm, hstart⟩

/-- An answer that does not repeat uses up a character. -/
theorem length_lt_of_not_repeats (h : ¬ l.Repeats) :
    l.next.2.cursor.rest.length < l.cursor.rest.length := by
  rw [Repeats, not_or] at h
  cases hn : l.next with
  | mk x l' =>
    rw [hn] at h
    cases x with
    | ok t => exact length_lt_of_next hn fun ht ↦ h.1 (congrArg Except.ok ht)
    | error e =>
      obtain ⟨n, hc⟩ := l.next_cursor
      rw [hn] at hc
      have hoff : l'.cursor.offset ≠ l.cursor.offset := fun hoff ↦ h.2 ⟨⟨e, rfl⟩, hoff⟩
      rw [hc] at hoff ⊢
      exact ((l.cursor.past_eq_self_or_lt n).resolve_left fun heq ↦
        hoff (congrArg Cursor.offset heq)).2

/-- The error of an answer. -/
def fault? : Except LexError Token → Option LexError
  | .ok _ => none
  | .error e => some e

theorem collect_of_repeats (h : l.Repeats) (n : Nat) :
    l.collect (n + 1) = ⟨[], fault? l.next.1, l.next.2.tokenStart⟩ := by
  rw [collect]
  obtain h | ⟨⟨e, h⟩, hoff⟩ := h
  · rw [(Prod.ext h rfl : l.next = (_, l.next.2))]
    rfl
  · rw [(Prod.ext h rfl : l.next = (_, l.next.2))]
    simp only [if_pos hoff, fault?]

theorem collect_of_not_repeats (h : ¬ l.Repeats) (n : Nat) :
    l.collect (n + 1) = (l.next.2.collect n).push ⟨l.next.1, l.next.2.tokenStart⟩ := by
  rw [Repeats, not_or] at h
  rw [collect]
  cases hn : l.next with
  | mk x l' =>
    rw [hn] at h
    cases x with
    | ok t =>
      have ht : t ≠ .eof := fun ht ↦ h.1 (congrArg Except.ok ht)
      cases t <;> first | rfl | exact absurd rfl ht
    | error e =>
      have hoff : l'.cursor.offset ≠ l.cursor.offset := fun hoff ↦ h.2 ⟨⟨e, rfl⟩, hoff⟩
      simp only [if_neg hoff]

/-- The bound on the number of answers has no part in the stream, as long as it is large enough. -/
theorem collect_eq_collect {m n : Nat} : ∀ {l : Lexer}, l.cursor.rest.length < m →
    l.cursor.rest.length < n → l.collect m = l.collect n := by
  induction m generalizing n with
  | zero => intro l hm; exact absurd hm (Nat.not_lt_zero _)
  | succ m ih =>
    intro l hm hn
    obtain ⟨n, rfl⟩ := Nat.exists_eq_succ_of_ne_zero (Nat.ne_of_gt (Nat.zero_lt_of_lt hn))
    by_cases h : l.Repeats
    · rw [collect_of_repeats h, collect_of_repeats h]
    · have hlt := length_lt_of_not_repeats h
      rw [collect_of_not_repeats h, collect_of_not_repeats h]
      exact congrArg _ (ih (by omega) (by omega))

theorem stream_of_repeats (h : l.Repeats) :
    l.stream = ⟨[], fault? l.next.1, l.next.2.tokenStart⟩ :=
  collect_of_repeats h _

/-- An answer that does not repeat stands first in the stream. -/
theorem stream_of_not_repeats (h : ¬ l.Repeats) :
    l.stream = l.next.2.stream.push ⟨l.next.1, l.next.2.tokenStart⟩ := by
  have hlt := length_lt_of_not_repeats h
  rw [stream, collect_of_not_repeats h, stream, collect_eq_collect (n := l.cursor.rest.length)
    (Nat.lt_succ_self _) hlt]

/-- A token that is read stands first in the stream. -/
theorem stream_of_next (h : l.next = (.ok t, l')) (ht : t ≠ .eof) :
    l.stream = l'.stream.push ⟨.ok t, l'.tokenStart⟩ := by
  have hrepeats : ¬ l.Repeats := by
    rw [Repeats, h]
    rintro (heof | ⟨⟨e, he⟩, -⟩)
    · exact ht (Except.ok.inj heof)
    · cases he
  rw [stream_of_not_repeats hrepeats, h]

/-- **The stream of a lexer gives the answer of the lexer first**, and goes on as the stream of the
lexer that has given it. -/
theorem stream_next (l : Lexer) :
    l.stream.next = (⟨l.next.1, l.next.2.tokenStart⟩, l.next.2.stream) := by
  by_cases h : l.Repeats
  · obtain ⟨hagain, hout, hstart⟩ := h.again
    rw [stream_of_repeats h, stream_of_repeats hagain, hout, hstart]
    obtain h | ⟨⟨e, h⟩, -⟩ := h <;> rw [h] <;> rfl
  · rw [stream_of_not_repeats h]
    rfl

/-! ## Tokens one after another

From here on nothing is bounded.  A run of tokens is given by its steps, and to be at the end is a
property of the lexer at which the run ends. -/

/-- Reading on and on gives the tokens `ts` and leads to the last lexer. -/
inductive Reads : Lexer → List Token → Lexer → Prop
  | done (l : Lexer) : Reads l [] l
  | more {l l' l'' : Lexer} {t : Token} {ts : List Token} (h : l.next = (.ok t, l'))
      (ht : t ≠ .eof) (h' : Reads l' ts l'') : Reads l (t :: ts) l''

/-- The tokens of a source from a lexer on: no error and nothing but the end follows them. -/
def Tokenizes (l : Lexer) (ts : List Token) : Prop :=
  ∃ l', Reads l ts l' ∧ l'.next.1 = .ok .eof

namespace Reads

variable {l'' : Lexer} {ts us : List Token}

theorem trans (h : Reads l ts l') (h' : Reads l' us l'') : Reads l (ts ++ us) l'' := by
  induction h with
  | done l => exact h'
  | more hn ht _ ih => exact more hn ht (ih h')

theorem split : ∀ {ts : List Token} {l : Lexer}, Reads l (ts ++ us) l'' →
    ∃ l', Reads l ts l' ∧ Reads l' us l''
  | [], l, h => ⟨l, .done l, h⟩
  | _ :: _, _, .more hn ht h => by
    obtain ⟨l', hts, hus⟩ := h.split
    exact ⟨l', .more hn ht hts, hus⟩

/-- Reading moves through the source. -/
theorem cursor_eq_past (h : Reads l ts l') : ∃ n, l'.cursor = l.cursor.past n := by
  induction h with
  | done l => exact ⟨0, l.cursor.past_zero.symm⟩
  | @more l l' _ _ _ hn _ _ ih =>
    obtain ⟨m, hm⟩ := l.next_cursor
    obtain ⟨n, hn'⟩ := ih
    rw [hn] at hm
    rw [hn', hm]
    exact ⟨_, l.cursor.past_past m n⟩

end Reads

end Lexer

end RequestCondition

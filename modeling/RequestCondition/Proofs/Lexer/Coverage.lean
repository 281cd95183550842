import Mathlib.Data.String.Basic
import Mathlib.Logic.Function.Iterate
import RequestCondition.Proofs.Lexer.Modes
import RequestCondition.Proofs.Lexer.Splice

/-!
# How a lexer goes through its source

What a lexer shows of its way are two byte offsets, that of its cursor and that of the token read
last.  `Lexer.Covers` says for one answer how they move: the token stands between the old cursor and
the new one, nothing but blanks stands before it, and every offset, that of an error included, is
the start of a character or the end of the source.

A lexer may be asked on after an error and after the end, and then it stands in the middle of what
would have been a token.  So all of this rests on an invariant that says little about modes:
`Lexer.Stands` keeps to the source and to the places where strings and references were opened, and
every answer preserves it (`Stands.next`).

* **Places.**  Offsets count bytes and the cursor holds characters, so an offset alone does not tell
  that it is one between characters.  `Cursor.In` ties the two together: what stands before the
  cursor has as many bytes as the offset says.  Moving past any number of characters keeps it.
* **Errors.**  An error points at the next token, or into it, or back to where a string or a
  reference was opened.  The last kind is the reason why `Stands` has to speak of the open modes.
* **Blanks.**  Between two tokens of a condition or of a reference stand blanks.  In the text of a
  string there are none to skip, since a blank is text there.

`Lexer.goesThrough` puts the answers together.  The slices of the source between the offsets add up
to what lies behind the cursor, and an end or an error comes before the characters run out.  It is
about every number of answers, also those that follow an error, because `Stands` is never lost.
-/

set_option autoImplicit false

namespace RequestCondition

/-! ## Slices of a source

A slice is cut out of the string by its bytes, as a reader of tokens would do it who knows nothing
but the two offsets.  Where both are boundaries it is made of whole characters. -/

/-- What stands in a source between two byte offsets. -/
def slice (source : String) (i j : Nat) : List Char :=
  (String.Pos.Raw.extract source ⟨i⟩ ⟨j⟩).toList

/-- A byte offset where a character of the source starts, or where the source ends. -/
def IsBoundary (source : String) (n : Nat) : Prop := String.Pos.Raw.IsValid source ⟨n⟩

variable {source : String}

/-- What stands between two parts of a source is the slice between their offsets. -/
theorem slice_of_append {u v w : List Char} (h : source.toList = u ++ v ++ w) :
    slice source (utf8Length u) (utf8Length u + utf8Length v) = v := by
  have hlen (cs : List Char) : utf8Length cs = String.utf8Len cs :=
    (utf8ByteSize_ofList cs).symm.trans (String.utf8ByteSize_ofList cs)
  have hsource : source = String.ofList (u ++ v ++ w) := by rw [← h, String.ofList_toList]
  rw [slice, hsource, hlen, hlen, String.extract_of_valid, String.toList_ofList]

theorem isBoundary_of_append {u v : List Char} (h : source.toList = u ++ v) :
    IsBoundary source (utf8Length u) := by
  refine String.Pos.Raw.isValid_iff_exists_append.2 ⟨String.ofList u, String.ofList v, ?_, ?_⟩
  · rw [← String.ofList_append, ← h, String.ofList_toList]
  · rw [String.rawEndPos, utf8ByteSize_ofList]

theorem isBoundary_zero (source : String) : IsBoundary source 0 :=
  isBoundary_of_append (u := []) rfl

/-! ## Places of a cursor

A cursor is in a source if some text stands before it, and as many bytes of it as the offset says.
-/

namespace Cursor

/-- The cursor is a place in the source. -/
def In (source : String) (c : Cursor) : Prop :=
  ∃ before, source.toList = before ++ c.rest ∧ utf8Length before = c.offset

namespace In

variable {c : Cursor}

theorem ofText (source : String) : In source (Cursor.ofText source) := ⟨[], rfl, rfl⟩

theorem past (h : In source c) (n : Nat) : In source (c.past n) := by
  obtain ⟨before, hsource, hlen⟩ := h
  refine ⟨before ++ c.rest.take n, ?_, ?_⟩
  · rw [List.append_assoc, Cursor.past, List.take_append_drop, hsource]
  · rw [utf8Length_append, hlen, Cursor.past]

theorem isBoundary (h : In source c) : IsBoundary source c.offset := by
  obtain ⟨before, hsource, hlen⟩ := h
  exact hlen ▸ isBoundary_of_append hsource

/-- What stands between a place and one further on. -/
theorem slice (h : In source c) (n : Nat) :
    slice source c.offset (c.past n).offset = c.rest.take n := by
  obtain ⟨before, hsource, hlen⟩ := h
  have hcut : source.toList = before ++ c.rest.take n ++ c.rest.drop n := by
    rw [List.append_assoc, List.take_append_drop, hsource]
  rw [Cursor.past, ← hlen]
  exact slice_of_append hcut

theorem offset_of_nil (h : In source c) (hr : c.rest = []) : c.offset = source.utf8ByteSize := by
  obtain ⟨before, hsource, hlen⟩ := h
  rw [hr, List.append_nil] at hsource
  rw [← hlen, ← hsource, ← utf8ByteSize_ofList, String.ofList_toList]

end In

end Cursor

/-! ## One answer

`Stands` is what an answer needs, and `Covers` what it gives. -/

namespace Lexer

variable {l : Lexer} {t : Token} {e : LexError}

theorem start_eq_past_blanks (l : Lexer) : l.start = l.cursor.past l.blanks.length := by
  rw [start, blanks]
  cases l.mode with
  | string quote opened => exact l.cursor.past_zero.symm
  | normal | reference _ => exact l.cursor.skipBlanks_eq_past

/-- The cursor is behind the token that has been read. -/
theorem next_cursor_eq_past (l : Lexer) : ∃ n, l.next.2.cursor = l.start.past n := by
  cases h : l.atTemplateEnd with
  | true =>
    rw [next_of_atTemplateEnd h, start_of_atTemplateEnd h]
    exact ⟨0, l.cursor.past_zero.symm⟩
  | false =>
    rw [next_of_not_atTemplateEnd h]
    exact ⟨_, rfl⟩

/-- A token has characters, unless it is the end. -/
theorem start_ne_next (h : l.next.1 = .ok t) (ht : t ≠ .eof) :
    ∃ n, l.next.2.cursor = l.start.past n ∧ l.start.rest.take n ≠ [] := by
  cases hend : l.atTemplateEnd with
  | true =>
    rw [next_of_atTemplateEnd hend] at h
    exact absurd (Except.ok.inj h).symm ht
  | false =>
    rw [next_of_not_atTemplateEnd hend] at h ⊢
    obtain ⟨hteof, -⟩ | ⟨-, hr, htaken⟩ := scan_ok h
    · exact absurd hteof ht
    · refine ⟨_, rfl, ?_⟩
      rw [Ne, List.take_eq_nil_iff]
      exact not_or.2 ⟨Nat.ne_of_gt htaken, hr⟩

/-- Nothing is left behind the end. -/
theorem next_rest_of_eof (h : l.next.1 = .ok .eof) : l.next.2.cursor.rest = [] := by
  obtain ⟨n, hn⟩ := l.next_cursor_eq_past
  have hr : l.start.rest = [] := by
    obtain hend | ⟨-, hr⟩ := next_eq_eof_iff.1 h
    · rw [start_of_atTemplateEnd hend]
      rw [atTemplateEnd, Bool.and_eq_true, List.isEmpty_iff] at hend
      exact hend.2
    · exact hr
  rw [hn, Cursor.past, hr, List.drop_nil]

/-- Every place that a lexer knows of is one of the source. -/
structure Stands (source : String) (l : Lexer) : Prop where
  cursor : l.cursor.In source
  tokenStart : IsBoundary source l.tokenStart
  modes : ∀ m ∈ l.modes, IsBoundary source m.opened

namespace Stands

theorem start (h : l.Stands source) : l.start.In source := by
  rw [start_eq_past_blanks]
  exact h.cursor.past _

theorem mode (h : l.Stands source) : IsBoundary source l.mode.opened := by
  rw [Lexer.mode]
  cases hm : l.modes with
  | nil => exact isBoundary_zero source
  | cons m ms => exact h.modes m (hm ▸ List.mem_cons_self)

/-- What a token opens starts where the token does. -/
theorem shift_apply (h : l.Stands source) {m : Mode} (hm : m ∈ l.scan.shift.apply l.modes) :
    IsBoundary source m.opened := by
  cases hs : l.scan.outcome with
  | error e =>
    rw [scan_error hs] at hm
    exact h.modes m hm
  | ok t =>
    have hshift := scan_guided hs
    generalize l.scan.shift = shift at hm hshift
    generalize l.mode = mode at hshift
    cases hshift with
    | openString | openReference =>
      obtain rfl | hm := List.mem_cons.1 hm
      · exact h.start.isBoundary
      · exact h.modes m hm
    | closeString | closeReference => exact h.modes m (List.mem_of_mem_tail hm)
    | stay => exact h.modes m hm

/-- **Every answer leaves a lexer at a place of its source**, a token and the end as well as an
error. -/
theorem next (h : l.Stands source) : l.next.2.Stands source := by
  obtain ⟨n, hn⟩ := l.next_cursor_eq_past
  refine ⟨hn ▸ h.start.past n, l.tokenStart_next ▸ h.start.isBoundary, fun m hm ↦ ?_⟩
  cases hend : l.atTemplateEnd with
  | true =>
    rw [next_of_atTemplateEnd hend] at hm
    exact h.modes m hm
  | false =>
    rw [next_of_not_atTemplateEnd hend] at hm
    exact h.shift_apply hm

theorem error (h : l.Stands source) (he : l.next.1 = .error e) : IsBoundary source e.offset := by
  cases hend : l.atTemplateEnd with
  | true =>
    rw [next_of_atTemplateEnd hend] at he
    cases he
  | false =>
    rw [next_of_not_atTemplateEnd hend] at he
    obtain heq | ⟨n, heq⟩ := offset_of_scan_error he
    · exact heq ▸ h.mode
    · exact heq ▸ (h.start.past n).isBoundary

end Stands

/-- What the next answer does to the offsets. -/
structure Covers (source : String) (l : Lexer) : Prop where
  /-- The token stands between the old cursor and the new one. -/
  order : l.cursor.offset ≤ l.next.2.tokenStart ∧ l.next.2.tokenStart ≤ l.next.2.cursor.offset
  boundary : IsBoundary source l.next.2.tokenStart ∧ IsBoundary source l.next.2.cursor.offset
  error : ∀ e, l.next.1 = .error e → IsBoundary source e.offset
  /-- Nothing but blanks stands before the token. -/
  gap : ∀ c ∈ slice source l.cursor.offset l.next.2.tokenStart, isBlank c = true
  /-- In the text of a string blanks are a part of it. -/
  noGap : ∀ quote opened, l.mode = .string quote opened → l.next.2.tokenStart = l.cursor.offset
  progress : ∀ t, l.next.1 = .ok t → t ≠ .eof →
    slice source l.next.2.tokenStart l.next.2.cursor.offset ≠ []
  finish : l.next.1 = .ok .eof → l.next.2.cursor.offset = source.utf8ByteSize

/-- Between the cursor and the start of the next token stand the blanks, and nothing else. -/
theorem Stands.slice_blanks (h : l.Stands source) :
    slice source l.cursor.offset l.start.offset = l.blanks := by
  rw [start_eq_past_blanks, h.cursor.slice, ← blanks_append_start, List.take_left]

/-- **What one answer covers**, from the invariant alone. -/
theorem Stands.covers (h : l.Stands source) : l.Covers source where
  order := by
    obtain ⟨n, hn⟩ := l.next_cursor_eq_past
    rw [hn, tokenStart_next, start_eq_past_blanks]
    exact ⟨Nat.le_add_right _ _, Nat.le_add_right _ _⟩
  boundary := ⟨h.next.tokenStart, h.next.cursor.isBoundary⟩
  error _ he := h.error he
  gap c hc := by
    rw [tokenStart_next, h.slice_blanks] at hc
    exact isBlank_of_mem_blanks hc
  noGap quote opened hm := by
    rw [tokenStart_next, start_offset, blanks_of_string hm]
    rfl
  progress t ht hne := by
    obtain ⟨n, hn, htake⟩ := start_ne_next ht hne
    rwa [tokenStart_next, hn, h.start.slice]
  finish heof := h.next.cursor.offset_of_nil (next_rest_of_eof heof)

/-! ## Any number of answers

`run n` is the lexer that has been asked `n` times, be its answers tokens or not.  What is said of
one answer is said of each of them by the invariant, and the pieces are put together by an induction
on the number of answers. -/

/-- The lexer that has been asked `n` times, whatever its answers were. -/
def run (l : Lexer) (n : Nat) : Lexer := (fun l ↦ l.next.2)^[n] l

theorem run_succ (l : Lexer) (n : Nat) : l.run (n + 1) = (l.run n).next.2 :=
  Function.iterate_succ_apply' _ n l

theorem next_run (l : Lexer) (n : Nat) : l.next.2.run n = l.run (n + 1) :=
  (Function.iterate_succ_apply _ n l).symm

theorem Stands.run (h : l.Stands source) (n : Nat) : (l.run n).Stands source := by
  induction n with
  | zero => exact h
  | succ n ih =>
    rw [run_succ]
    exact ih.next

/-- Whether the next answer is the end of the source or an error. -/
def Stops (l : Lexer) : Prop := l.next.1 = .ok .eof ∨ ∃ e, l.next.1 = .error e

/-- An answer that does not stop is a token. -/
theorem exists_token_of_not_stops (h : ¬ l.Stops) : ∃ t l', l.next = (.ok t, l') ∧ t ≠ .eof := by
  rw [Stops, not_or, not_exists] at h
  cases hn : l.next with
  | mk x l' =>
    rw [hn] at h
    cases x with
    | ok t => exact ⟨t, l', rfl, fun ht ↦ h.1 (congrArg Except.ok ht)⟩
    | error e => exact absurd rfl (h.2 e)

/-- A lexer that does not stop uses up its characters, so it stops. -/
theorem exists_stops (l : Lexer) : ∃ n ≤ l.cursor.rest.length, (l.run n).Stops := by
  generalize hlen : l.cursor.rest.length = k
  induction k using Nat.strong_induction_on generalizing l with
  | _ k ih =>
    by_cases hstops : l.Stops
    · exact ⟨0, Nat.zero_le _, hstops⟩
    · obtain ⟨t, l', hn, ht⟩ := exists_token_of_not_stops hstops
      have hlt := length_lt_of_next hn ht
      obtain ⟨n, hle, hstops⟩ := ih _ (hlen ▸ hlt) l' rfl
      refine ⟨n + 1, by omega, ?_⟩
      rwa [← next_run, hn]

/-- The answers of a lexer are tokens up to one that stops. -/
theorem exists_reads_stops (l : Lexer) : ∃ ts l', l.Reads ts l' ∧ l'.Stops := by
  obtain ⟨n, -, hn⟩ := l.exists_stops
  induction n generalizing l with
  | zero => exact ⟨[], l, .done l, hn⟩
  | succ n ih =>
    by_cases hstops : l.Stops
    · exact ⟨[], l, .done l, hstops⟩
    · obtain ⟨t, l', hnext, ht⟩ := exists_token_of_not_stops hstops
      rw [← next_run, hnext] at hn
      obtain ⟨ts, l'', hreads, hl''⟩ := ih l' hn
      exact ⟨t :: ts, l'', .more hnext ht hreads, hl''⟩

/-- The blanks before the token that answer number `i` is about, and the token. -/
def piece (source : String) (l : Lexer) (i : Nat) : List Char :=
  slice source (l.run i).cursor.offset (l.run (i + 1)).tokenStart ++
    slice source (l.run (i + 1)).tokenStart (l.run (i + 1)).cursor.offset

/-- The pieces of the first `n` answers, put together, are what the cursor has moved past. -/
theorem Stands.pieces (h : l.Stands source) (n : Nat) : ∃ k, (l.run n).cursor = l.cursor.past k ∧
    (List.range n).flatMap (piece source l) = l.cursor.rest.take k := by
  induction n with
  | zero => exact ⟨0, l.cursor.past_zero.symm, rfl⟩
  | succ n ih =>
    obtain ⟨k, hk, hpieces⟩ := ih
    have hn := h.run n
    obtain ⟨m, hm⟩ := (l.run n).next_cursor_eq_past
    have hpiece : piece source l n = (l.run n).blanks ++ (l.run n).start.rest.take m := by
      rw [piece, run_succ, tokenStart_next, hn.slice_blanks, hm, hn.start.slice]
    have hcut : (l.run n).blanks ++ (l.run n).start.rest.take m =
        (l.cursor.rest.drop k).take ((l.run n).blanks.length + m) := by
      have hrest : (l.run n).blanks ++ (l.run n).start.rest = l.cursor.rest.drop k := by
        rw [blanks_append_start, hk, Cursor.past]
      rw [← hrest, List.take_length_add_append]
    refine ⟨k + ((l.run n).blanks.length + m), ?_, ?_⟩
    · rw [run_succ, hm, start_eq_past_blanks, Cursor.past_past, hk, Cursor.past_past]
    · rw [List.range_succ, List.flatMap_append, hpieces, List.flatMap_singleton, hpiece, hcut,
        List.take_add (i := k)]

/-- What a lexer does with a source, however often it is asked. -/
structure GoesThrough (source : String) (l : Lexer) : Prop where
  covers : ∀ n, (l.run n).Covers source
  stops : ∃ n ≤ source.length, (l.run n).Stops
  pieces : ∀ n, (List.range n).flatMap (piece source l) = slice source 0 (l.run n).cursor.offset

theorem goesThrough_of_stands (h : l.Stands source) (hl : l.cursor = Cursor.ofText source) :
    l.GoesThrough source where
  covers n := (h.run n).covers
  stops := by
    have := l.exists_stops
    rwa [hl] at this
  pieces n := by
    obtain ⟨k, hk, hpieces⟩ := h.pieces n
    have hslice := h.cursor.slice k
    rw [hpieces, hk, ← hslice, hl]
    rfl

/-- **Lexers go through their source without gaps, overlaps or stalls**, be it read as a condition
or as a template. -/
theorem goesThrough (source : String) :
    (condition source).GoesThrough source ∧ (ofTemplate source).GoesThrough source := by
  have hzero := isBoundary_zero source
  constructor
  · refine goesThrough_of_stands ⟨.ofText source, hzero, fun m hm ↦ ?_⟩ rfl
    rw [List.mem_singleton.1 hm]
    exact hzero
  · refine goesThrough_of_stands ⟨.ofText source, hzero, fun m hm ↦ ?_⟩ rfl
    rw [List.mem_singleton.1 hm]
    exact hzero

end Lexer

end RequestCondition

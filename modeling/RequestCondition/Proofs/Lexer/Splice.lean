import RequestCondition.Proofs.Lexer.Swap

/-!
# Sources that begin alike

A lexer that has read some tokens reads the same ones from another source that agrees with the first
up to the token that comes next, wherever the new rest does not go on with the last of them.  That
is `Lexer.Reads.splice`.

Only the last token needs to be looked at.  A token before it is followed by blanks or by another
token, and two characters of those, or one that is a token of its own, settle where it ends
(`replaces_of_next`).

So the proof is an induction on the tokens with a new rest put in at the far end.  At each token the
rest in question is what stands behind it, and this agrees with the old one for as long as there is
another token to be read.  One case needs a thought: the next token may be a single character, and
then the second character behind the token at hand belongs to what has been replaced.  It matters
only where a point and a digit could make a fraction, which is why the new rest must not start with
a digit where the old one does not.

A token is `l.blanks ++ l.text` from the cursor on, and `withRest` is the same lexer in front of
something else.  With these two, what has been said of scans becomes an equation about `next`
(`next_withRest`).
-/

set_option autoImplicit false

namespace RequestCondition

/-- In a mode, `y` goes on with what stands before it only where `x` does. -/
def Mode.Replaces : Mode → List Char → List Char → Prop
  | .normal => Loose
  | .string quote _ => Closed quote
  | .reference _ => Scan.Braced

namespace Lexer

variable {l l' : Lexer} {t : Token} {u v w : List Char}

theorem mode_of_modes {m : Mode} {ms : List Mode} (h : l.modes = m :: ms) : l.mode = m := by
  rw [mode, h]
  rfl

/-! ## The parts of a token

What a lexer has before it is cut in three: the blanks, the text of the next token, and what is left
for the lexer behind it.  `of_next`, `of_token` and `next_of_token` are what later modules use of
the definition of `next`; they do not unfold it again. -/

/-- The blanks before the next token. -/
def blanks (l : Lexer) : List Char :=
  match l.mode with
  | .string _ _ => []
  | _ => l.cursor.rest.takeWhile isBlank

/-- The characters of the next token. -/
def text (l : Lexer) : List Char := l.start.rest.take l.scan.taken

/-- The blanks and what stands behind them are what the lexer has before it. -/
theorem blanks_append_start (l : Lexer) : l.blanks ++ l.start.rest = l.cursor.rest := by
  rw [blanks, start]
  cases l.mode with
  | string _ _ => rfl
  | normal | reference _ => exact List.takeWhile_append_dropWhile

theorem start_offset (l : Lexer) :
    l.start.offset = l.cursor.offset + utf8Length l.blanks := by
  rw [blanks, start]
  cases l.mode with
  | string _ _ => rfl
  | normal | reference _ => rfl

theorem isBlank_of_mem_blanks {c : Char} (h : c ∈ l.blanks) : isBlank c = true := by
  rw [blanks] at h
  split at h
  · cases h
  · exact List.mem_takeWhile_imp h

/-- No blanks stand before a token of a string: they are text there. -/
theorem blanks_of_string {quote : Char} {opened : Nat} (h : l.mode = .string quote opened) :
    l.blanks = [] := by
  rw [blanks, h]

/-- Blanks are none of the characters that `p` asks for. -/
theorem nextIs_append_of_blank {p : Char → Bool} {b : List Char} (hb : ∀ c ∈ b, isBlank c = true)
    (hp : ∀ c, isBlank c = true → p c = false) (h : nextIs p w = false) :
    nextIs p (b ++ w) = false := by
  cases b with
  | nil => exact h
  | cons c b => exact hp c (hb c List.mem_cons_self)

theorem length_text (l : Lexer) : l.text.length = l.scan.taken := by
  rw [text, List.length_take, Nat.min_eq_left l.scan_taken_le]

theorem atTemplateEnd_eq_false (hl : l.template = false) : l.atTemplateEnd = false := by
  rw [atTemplateEnd, hl]
  rfl

/-- A template ends where its last token would start. -/
theorem start_of_atTemplateEnd (h : l.atTemplateEnd = true) : l.start = l.cursor := by
  rw [atTemplateEnd, Bool.and_eq_true, List.isEmpty_iff] at h
  exact start_of_nil h.2

theorem of_next (hl : l.template = false) (h : l.next = (.ok t, l')) :
    l.scan.outcome = .ok t ∧ l'.cursor = l.start.past l.scan.taken ∧
      l'.modes = l.scan.shift.apply l.modes ∧ l'.template = false := by
  rw [next_of_not_atTemplateEnd (atTemplateEnd_eq_false hl)] at h
  obtain ⟨hs, rfl⟩ := Prod.mk.inj h
  exact ⟨hs, rfl, rfl, hl⟩

theorem mode_eq_of_stay (hl : l.template = false) (h : l.next = (.ok t, l'))
    (hstay : l.scan.shift = .stay) : l'.mode = l.mode := by
  rw [mode, mode, (of_next hl h).2.2.1, hstay, Shift.apply]

/-- What a lexer is like that has read a token other than the end. -/
theorem of_token (h : l.next = (.ok t, l')) (ht : t ≠ .eof) :
    l.scan.outcome = .ok t ∧ l.cursor.rest = l.blanks ++ l.start.rest ∧
      l'.cursor.rest = l.start.rest.drop l.scan.taken ∧ l'.modes = l.scan.shift.apply l.modes ∧
      l'.template = l.template := by
  cases hend : l.atTemplateEnd with
  | true =>
    rw [next_of_atTemplateEnd hend] at h
    obtain ⟨heof, -⟩ := Prod.mk.inj h
    exact absurd (Except.ok.inj heof).symm ht
  | false =>
    rw [next_of_not_atTemplateEnd hend] at h
    obtain ⟨hs, rfl⟩ := Prod.mk.inj h
    exact ⟨hs, l.blanks_append_start.symm, rfl, rfl, rfl⟩

/-- A token that is read starts behind the blanks. -/
theorem tokenStart_next (l : Lexer) : l.next.2.tokenStart = l.start.offset := by
  cases h : l.atTemplateEnd with
  | true => rw [next_of_atTemplateEnd h, start_of_atTemplateEnd h]
  | false => rw [next_of_not_atTemplateEnd h]

/-- A condition ends between tokens, where nothing is left. -/
theorem of_eof (hl : l.template = false) (h : l.next.1 = .ok .eof) :
    l.mode = .normal ∧ l.start.rest = [] := by
  have hn := next_eq_eof_iff.1 h
  rw [atTemplateEnd_eq_false hl] at hn
  exact hn.resolve_left Bool.false_ne_true

/-- A token that stands at the start is read, if that is not the end of a template. -/
theorem next_of_token (h : l.atTemplateEnd = false) (hs : l.scan.outcome = .ok t) :
    ∃ l', l.next = (.ok t, l') ∧ l'.cursor.rest = l.start.rest.drop l.scan.taken ∧
      l'.modes = l.scan.shift.apply l.modes ∧ l'.template = l.template := by
  rw [next_of_not_atTemplateEnd h, hs]
  exact ⟨_, rfl, rfl, rfl, rfl⟩

/-- An error at the start is the answer, if that is not the end of a template. -/
theorem next_of_error {e : LexError} (h : l.atTemplateEnd = false)
    (hs : l.scan.outcome = .error e) : l.next.1 = .error e := by
  rw [next_of_not_atTemplateEnd h, hs]

/-- A token of a condition that is known to stand at the start is read. -/
theorem next_of_normal {n : Nat} (hl : l.template = false) (hm : l.mode = .normal)
    (hs : Scan.normal l.regexAllowed l.start.offset l.start.rest = ⟨.ok t, n, .stay⟩) :
    ∃ l', l.next = (.ok t, l') ∧ l'.cursor.rest = l.start.rest.drop n ∧ l'.modes = l.modes ∧
      l'.template = false := by
  have hscan : l.scan = ⟨.ok t, n, .stay⟩ := by rw [scan, hm, hs]
  obtain ⟨l', hn, hr, hmodes, hl'⟩ := next_of_token (t := t) (atTemplateEnd_eq_false hl)
    (by rw [hscan])
  rw [hscan] at hr hmodes
  exact ⟨l', hn, hr, hmodes, hl'.trans hl⟩

/-- Behind the text of a token stands what the next lexer has before it. -/
theorem start_eq_text_append (hl : l.template = false) (h : l.next = (.ok t, l')) :
    l.start.rest = l.text ++ l'.cursor.rest := by
  rw [(of_next hl h).2.1, Cursor.past, text]
  exact (List.take_append_drop _ _).symm

/-- Every token but the end has some text. -/
theorem text_ne_nil (hl : l.template = false) (h : l.next = (.ok t, l')) (ht : t ≠ .eof) :
    l.text ≠ [] := by
  have hs := (of_next hl h).1
  obtain ⟨hteof, -⟩ | ⟨-, -, htaken⟩ := scan_ok hs
  · exact absurd hteof ht
  · rw [← length_text] at htaken
    exact List.ne_nil_of_length_pos htaken

/-! ## Another rest

The offset of the cursor is left alone.  So the new lexer is one that could stand at this place with
another source before it, and all that is said about the token is an equation and not a relation. -/

/-- The lexer at the same place, with something else behind it. -/
def withRest (l : Lexer) (cs : List Char) : Lexer :=
  { l with cursor := ⟨l.cursor.offset, cs⟩ }

@[simp] theorem mode_withRest (l : Lexer) (cs : List Char) : (l.withRest cs).mode = l.mode := rfl

/-- Where a run of characters has been dropped, none of them comes next. -/
theorem nextIs_dropWhile (p : Char → Bool) (cs : List Char) :
    nextIs p (cs.dropWhile p) = false := by
  refine (takeWhile_cut (a := cs.takeWhile p) ?_).2
  rw [List.takeWhile_append_dropWhile]

/-- Outside of strings a token does not start with a blank. -/
def Starts (l : Lexer) (cs : List Char) : Prop :=
  (∀ quote opened, l.mode ≠ .string quote opened) → nextIs isBlank cs = false

theorem starts_start (l : Lexer) : l.Starts l.start.rest := by
  rw [Starts, start]
  intro hm
  cases h : l.mode with
  | string quote opened => exact absurd h (hm quote opened)
  | normal | reference _ => exact nextIs_dropWhile _ _

/-- A token starts behind the blanks that stand before it. -/
theorem start_of_blanks {b y : List Char} (hb : ∀ c ∈ b, isBlank c = true)
    (hr : l.cursor.rest = b ++ y) (hy : l.Starts y)
    (hstring : ∀ quote opened, l.mode = .string quote opened → b = []) : l.start.rest = y := by
  rw [Starts] at hy
  rw [start]
  cases hm : l.mode with
  | string quote opened =>
    rw [hstring quote opened hm] at hr
    exact hr
  | normal | reference _ =>
    have hy' : nextIs isBlank y = false := hy (by simp [hm])
    change l.cursor.rest.dropWhile isBlank = y
    rw [hr, List.dropWhile_append_of_pos hb]
    cases y with
    | nil => rfl
    | cons c y =>
      rw [nextIs] at hy'
      rw [List.dropWhile_cons, hy']
      rfl

theorem starts_append {a x : List Char} (hr : l.start.rest = a ++ x) (ha : a ≠ []) (y : List Char) :
    l.Starts (a ++ y) := by
  have hstarts := l.starts_start
  rwa [hr, Starts, nextIs_append ha isBlank y x] at hstarts

/-- With another rest behind the same blanks, the token starts at the same place. -/
theorem start_withRest (h : l.Starts w) :
    (l.withRest (l.blanks ++ w)).start = ⟨l.start.offset, w⟩ := by
  rw [Starts] at h
  rw [start_offset, start, mode_withRest]
  cases hm : l.mode with
  | string quote opened =>
    rw [blanks_of_string hm]
    rfl
  | normal | reference _ =>
    have hw : nextIs isBlank w = false := h (by simp [hm])
    have htake : (l.blanks ++ w).takeWhile isBlank = l.blanks :=
      takeWhile_append_eq (fun _ ↦ isBlank_of_mem_blanks) hw
    change Cursor.skipBlanks ⟨l.cursor.offset, l.blanks ++ w⟩ = _
    rw [Cursor.skipBlanks_eq_past, htake, Cursor.past, List.take_left, List.drop_left]

/-- A token is the same in front of a rest that does not go on with it. -/
theorem scan_withRest {a x y : List Char} (hs : l.scan.outcome = .ok t)
    (hr : l.start.rest = a ++ x) (ha : a ≠ []) (htaken : l.scan.taken = a.length)
    (hxy : l.scan.shift = .stay → l.mode.Replaces x y) :
    (l.withRest (l.blanks ++ (a ++ y))).scan = l.scan := by
  have hstarts := starts_append hr ha y
  obtain ⟨c, a, rfl⟩ := List.exists_cons_of_ne_nil ha
  rw [scan] at hs htaken hxy
  rw [scan, scan, mode_withRest, start_withRest hstarts]
  cases hm : l.mode with
  | normal =>
    rw [hm, hr] at hs htaken hxy
    rw [hr]
    exact Scan.normal_swap hs htaken hxy
  | string quote opened =>
    rw [hm, hr] at hs htaken hxy
    rw [hr]
    exact Scan.string_swap hs htaken hxy
  | reference opened =>
    rw [hm, hr] at hs htaken hxy
    rw [hr]
    exact Scan.reference_swap hs htaken hxy

/-- **A token is read again in front of a rest that does not go on with it.**  Only a token that
leaves the modes as they are could be gone on with; what opens or closes something ends by
itself. -/
theorem next_withRest {y : List Char} (hl : l.template = false) (h : l.next = (.ok t, l'))
    (ht : t ≠ .eof) (hxy : l.scan.shift = .stay → l.mode.Replaces l'.cursor.rest y) :
    (l.withRest (l.blanks ++ (l.text ++ y))).next = (.ok t, l'.withRest y) := by
  have hr := start_eq_text_append hl h
  have htext := text_ne_nil hl h ht
  have hs := (of_next hl h).1
  have hscan := scan_withRest hs hr htext l.length_text.symm hxy
  have hstarts := starts_append hr htext y
  have hend (cs : List Char) : (l.withRest cs).atTemplateEnd = false := atTemplateEnd_eq_false hl
  rw [next_of_not_atTemplateEnd (atTemplateEnd_eq_false hl)] at h
  obtain ⟨-, rfl⟩ := Prod.mk.inj h
  have hpast : (⟨l.start.offset, l.text ++ y⟩ : Cursor).past l.scan.taken =
      ⟨(l.start.past l.scan.taken).offset, y⟩ := by
    rw [Cursor.past, Cursor.past, ← text, ← length_text, List.take_left, List.drop_left]
  rw [next_of_not_atTemplateEnd (hend _), hscan, start_withRest hstarts, hs, hpast]
  rfl

/-! ## Where tokens end

What has been said of one token is said of many here.  The new rest is behind all of them, and each
one but the last has the others in between. -/

/-- A single character that holds the next token is that token. -/
theorem start_of_singleton {c : Char} (hl : l.template = false) (h : l.next = (.ok t, l'))
    (ht : t ≠ .eof) (hr : l.cursor.rest = [c] ++ v) (hu : l.blanks ++ l.text <+: [c]) :
    l.start.rest = c :: v ∧ l.scan.taken = 1 := by
  have hpos := List.length_pos_iff.2 (text_ne_nil hl h ht)
  have hlen := hu.length_le
  rw [List.length_append, List.length_singleton] at hlen
  have hblanks : l.blanks = [] := List.length_eq_zero_iff.1 (by omega)
  refine ⟨?_, ?_⟩
  · have := l.blanks_append_start
    rwa [hblanks, hr] at this
  · rw [← length_text]
    omega

/-- What stands behind a token is settled by the token that comes next, if it is there. -/
theorem replaces_of_next (hl : l.template = false) (h : l.next = (.ok t, l')) (ht : t ≠ .eof)
    (hr : l.cursor.rest = u ++ v) (hu : l.blanks ++ l.text <+: u)
    (hw : nextIs isDigit v = false → nextIs isDigit w = false) :
    l.mode.Replaces (u ++ v) (u ++ w) := by
  have htext := text_ne_nil hl h ht
  have hne : u ≠ [] := by
    rintro rfl
    exact htext (List.append_eq_nil_iff.1 (List.prefix_nil.1 hu)).2
  cases hm : l.mode with
  | normal =>
    obtain ⟨c, u, rfl⟩ := List.exists_cons_of_ne_nil hne
    -- no token of a condition looks further than two characters
    cases u with
    | cons d u => exact Loose.cons_cons
    | nil =>
      cases hblank : isBlank c with
      | true => exact Loose.of_soft (Soft.cons_iff.2 hblank)
      | false =>
      refine Loose.cons hw ?_
      rintro rfl
      obtain ⟨hstart, htaken⟩ := start_of_singleton hl h ht hr hu
      rw [scan, hm, hstart] at htaken
      exact Scan.nextIs_of_normal htaken
  | string quote opened =>
    refine ⟨fun hx ↦ ?_, fun hx ↦ (nextIs_append hne _ v w).trans hx,
      fun hx ↦ (nextIs_append hne _ v w).trans hx⟩
    obtain ⟨c, u, rfl⟩ := List.exists_cons_of_ne_nil hne
    rw [List.cons_append, stringText_cons_eq_iff] at hx ⊢
    cases u with
    | cons d u => exact hx
    | nil =>
      obtain ⟨hstart, htaken⟩ := start_of_singleton hl h ht hr hu
      rw [scan, hm, hstart] at htaken
      have hc := Scan.eq_quote_of_stopsText hx htaken
      rw [stopsText, hc, beq_self_eq_true, Bool.true_or, Bool.true_or]
  | reference opened =>
    exact ⟨fun hx ↦ (nextIs_append hne _ v w).trans hx, fun hx ↦ (nextIs_append hne _ v w).trans hx⟩

namespace Reads

variable {ts : List Token}

theorem template_eq (h : Reads l ts l') (hl : l.template = false) : l'.template = false := by
  induction h with
  | done l => exact hl
  | more hn _ _ ih => exact ih (of_next hl hn).2.2.2

/-- **Tokens that are read from a source are read from any that agrees with it up to the next
token**, unless the new rest goes on with the last of them.  Each of the others is followed by a
token of its own source, which does not go on with it and is there in the new one too. -/
theorem splice (h : Reads l ts l') (hl : l.template = false) (hw : nextIs isDigit w = false)
    (hlast : ∀ {l₁ : Lexer} {t : Token}, ts.getLast? = some t → l₁.template = false →
      l₁.next = (.ok t, l') → l₁.scan.shift = .stay →
      l₁.mode.Replaces l'.cursor.rest (l'.blanks ++ w)) :
    ∃ u, l.cursor.rest = u ++ l'.start.rest ∧ (ts ≠ [] → l.blanks ++ l.text <+: u) ∧
      Reads (l.withRest (u ++ w)) ts (l'.withRest (l'.blanks ++ w)) := by
  induction h with
  | done l => exact ⟨l.blanks, l.blanks_append_start.symm, fun h ↦ absurd rfl h, .done _⟩
  | @more l l₁ l' t ts hn ht hr ih =>
    obtain ⟨hs, -, -, hl₁⟩ := of_next hl hn
    have hlast' : ∀ {l₂ : Lexer} {t' : Token}, ts.getLast? = some t' → l₂.template = false →
        l₂.next = (.ok t', l') → l₂.scan.shift = .stay →
        l₂.mode.Replaces l'.cursor.rest (l'.blanks ++ w) := by
      intro l₂ t' hts
      refine hlast ?_
      rw [List.getLast?_cons, hts]
      rfl
    obtain ⟨u, hu, htoken, hreads⟩ := ih hl₁ hlast'
    -- behind the last token stand only blanks, behind any other the token that comes next
    have hxy (hstay : l.scan.shift = .stay) : l.mode.Replaces l₁.cursor.rest (u ++ w) := by
      cases hr with
      | done _ =>
        have hblanks : u = l₁.blanks :=
          List.append_cancel_right (hu.symm.trans l₁.blanks_append_start.symm)
        rw [hblanks]
        exact hlast rfl hl hn hstay
      | more hn' ht' _ =>
        rw [← mode_eq_of_stay hl hn hstay, hu]
        exact replaces_of_next hl₁ hn' ht' hu (htoken (List.cons_ne_nil _ _)) fun _ ↦ hw
    refine ⟨l.blanks ++ (l.text ++ u), ?_, fun _ ↦ ⟨u, List.append_assoc _ _ _⟩, ?_⟩
    · rw [← l.blanks_append_start, start_eq_text_append hl hn, hu, List.append_assoc,
        List.append_assoc]
    · rw [List.append_assoc, List.append_assoc]
      exact .more (next_withRest hl hn ht hxy) ht hreads

end Reads

end Lexer

end RequestCondition

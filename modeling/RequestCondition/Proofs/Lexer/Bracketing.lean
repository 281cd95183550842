import RequestCondition.Proofs.Lexer.Balanced
import RequestCondition.Proofs.Lexer.Coverage
import RequestCondition.Proofs.Lexer.Tokens

/-!
# What is opened is closed

The tokens of a source are bracketed, as far as it can be read.  A lexer does not know of balance.
It knows its modes, and what one token does to them is `Mode.Step`: nothing, where the mode admits
the token; or it opens a mode inside of the innermost one, or closes that.  So the modes are never
more than three (`Stacked`).

Two facts are not in the modes but in the place where the cursor is left.  Text goes on until
something else comes, and an argument goes up to the brace that closes the reference
(`Token.Follows`).  `Lexer.Bracketed` puts them together with the tokens that have been read: each
mode that is open is one layer that has been begun.

The mode at the bottom is never closed.  In a template that is due to the source: its mode is a
string, and a NUL would close it (`Mode.Lasts`).

The way to the theorem goes in three steps.

* **One scan** (`Lexer.scan_turned`).  A token is of the mode that it is read in, or opens a mode
  inside of it, or closes it.  This is the list of answers once more, told in terms of layers.
* **The modes** (`Keeps.next`).  A step keeps them in order.  It is stated for every answer and not
  only for tokens, because a lexer may be asked again after an error.
* **The tokens** (`Bracketed.next`, `Bracketed.reads`).  The invariant holds before anything has
  been read, and each token preserves it.  What the theorem says of the tokens that have been read
  follows from the invariant without a further induction.
-/

set_option autoImplicit false

namespace RequestCondition

/-! ## What a token does to the modes

`Turns` is about one mode and one token, and `Mode.Step` about all that are open.  The first is what
a scan shows, and the second is what the stack of modes makes of it. -/

/-- What stands in a mode. -/
def Mode.layer : Mode → Layer
  | normal => .condition
  | string _ _ => .string
  | reference _ => .reference

theorem Mode.eq_normal_of_layer {m : Mode} (h : m.layer = .condition) : m = .normal := by
  cases m with
  | normal => rfl
  | string _ _ | reference _ => cases h

/-- What a token does that is read in a mode: nothing, or it opens another mode, or closes this
one. -/
inductive Turns (m : Mode) : Token → Shift → Prop
  | stay {t : Token} (ht : m.layer.Admits none t) : Turns m t .stay
  | enter {m' : Mode} {t u : Token} (h : m.layer.Encloses t m'.layer u) : Turns m t (.enter m')
  | leave {L : Layer} {t u : Token} (h : L.Encloses u m.layer t) : Turns m t .leave

namespace Turns

variable {m : Mode} {shift : Shift}

/-- Text is read in strings alone. -/
theorem mode_of_text {s : String} (h : Turns m (.strText s) shift) :
    ∃ quote opened, m = .string quote opened := by
  cases m with
  | string quote opened => exact ⟨quote, opened, rfl⟩
  | normal | reference _ => rcases h with ⟨⟨⟨⟩⟩⟩ | ⟨⟨⟩⟩ | ⟨⟨⟩⟩

/-- Arguments are read in references alone. -/
theorem mode_of_argument {arg : String} (h : Turns m (.varArg arg) shift) :
    ∃ opened, m = .reference opened := by
  cases m with
  | reference opened => exact ⟨opened, rfl⟩
  | normal | string _ _ => rcases h with ⟨⟨⟨⟩⟩⟩ | ⟨⟨⟩⟩ | ⟨⟨⟩⟩

end Turns

/-- **A token is of the mode that it is read in, or opens a mode inside of it or closes it.**  The
list of answers is gone through once more, since a shift is known there together with its token. -/
theorem Lexer.scan_turned {l : Lexer} {t : Token} (h : l.scan.outcome = .ok t) (ht : t ≠ .eof) :
    Turns l.mode t l.scan.shift := by
  have hans := l.scan_answered
  generalize l.scan = s, l.start.rest = cs, l.mode = m at h hans ⊢
  cases hans with
  | eof =>
    cases h
    exact absurd rfl ht
  | plain hplain _ _ _ =>
    cases h
    exact .stay (.plain hplain)
  | beginString _ =>
    cases h
    exact .enter .string
  | beginReference hm _ =>
    cases h
    refine .enter (.reference fun hlayer ↦ ?_)
    cases m with
    | reference opened => exact hm opened rfl
    | normal | string _ _ => cases hlayer
  | endString =>
    cases h
    exact .leave .string
  | backref _ _ =>
    cases h
    exact .stay (.backref _)
  | text hs _ _ =>
    cases h
    exact .stay (.text hs nofun)
  | endReference =>
    cases h
    exact .leave (.reference (L := .condition) nofun)
  | argument _ _ _ =>
    cases h
    exact .stay (.argument _ nofun)
  | name _ _ _ =>
    cases h
    exact .stay (.name _ nofun)
  | unclosed _ | strange _ _ => cases h

/-- A string is closed by its quote. -/
theorem Lexer.quote_mem_of_strEnd {l : Lexer} {quote : Char} {opened : Nat}
    (hm : l.mode = .string quote opened) (h : l.scan.outcome = .ok .strEnd) :
    quote ∈ l.start.rest := by
  have hans := l.scan_answered
  rw [hm] at hans
  generalize l.scan = s, l.start.rest = cs at h hans ⊢
  cases hans with
  | endString => exact List.mem_cons_self
  | _ => cases h

/-- What a token does to the modes, which stand innermost first. -/
inductive Mode.Step : List Mode → Token → List Mode → Prop
  | stay {m : Mode} {ms : List Mode} {t : Token} (ht : m.layer.Admits none t) :
      Step (m :: ms) t (m :: ms)
  | enter {m m' : Mode} {ms : List Mode} {t u : Token} (h : m.layer.Encloses t m'.layer u) :
      Step (m :: ms) t (m' :: m :: ms)
  | leave {m n : Mode} {ms : List Mode} {t u : Token} (h : n.layer.Encloses u m.layer t) :
      Step (m :: n :: ms) t (n :: ms)

/-- The modes of a lexer that has begun with `bottom` alone: a string can be open in a condition,
and a reference in either. -/
inductive Stacked : Mode → List Mode → Prop
  | bottom (m : Mode) : Stacked m [m]
  | string (quote : Char) (opened : Nat) : Stacked .normal [.string quote opened, .normal]
  | reference {m : Mode} (hm : m.layer ≠ .reference) (start : Nat) :
      Stacked m [.reference start, m]
  | stringReference (start : Nat) (quote : Char) (opened : Nat) :
      Stacked .normal [.reference start, .string quote opened, .normal]

namespace Stacked

variable {bottom m m' n : Mode} {ms ms' : List Mode} {t u : Token} {L : Layer}

/-- Only a string is entered from a condition, and only a reference from a condition or a string. -/
theorem enter (h : Stacked bottom (m :: ms)) (henc : m.layer.Encloses t m'.layer u) :
    Stacked bottom (m' :: m :: ms) := by
  cases m' with
  | normal => exact absurd rfl henc.ne_condition
  | string quote opened =>
    obtain rfl := Mode.eq_normal_of_layer henc.eq_condition
    cases h with
    | bottom => exact .string quote opened
  | reference start =>
    have hm := henc.ne_reference
    cases h with
    | bottom m => exact .reference hm start
    | string quote opened => exact .stringReference start quote opened
    | reference _ _ | stringReference _ _ _ => exact absurd rfl hm

theorem tail (h : Stacked bottom (m :: n :: ms)) : Stacked bottom (n :: ms) := by
  cases h with
  | string _ _ => exact .bottom _
  | reference _ _ => exact .bottom _
  | stringReference _ quote opened => exact .string quote opened

/-- What closes a mode closes it inside of the mode below. -/
theorem encloses (h : Stacked bottom (m :: n :: ms)) (henc : L.Encloses u m.layer t) :
    n.layer.Encloses u m.layer t := by
  cases h with
  | string _ _ =>
    cases henc with
    | string => exact .string
  | reference hm _ =>
    cases henc with
    | reference _ => exact .reference hm
  | stringReference _ _ _ =>
    cases henc with
    | reference _ => exact .reference nofun

/-- **A token leaves the modes in order.** -/
theorem step (h : Stacked bottom ms) (hstep : Mode.Step ms t ms') : Stacked bottom ms' := by
  cases hstep with
  | stay _ => exact h
  | enter henc => exact h.enter henc
  | leave _ => exact h.tail

end Stacked

/-! ## The mode at the bottom

A mode can be closed only by characters that are still to come.  So `Lasts` is about what is left of
the source, and it stays true as that gets shorter. -/

/-- Whether a mode cannot be closed by what is left of a source. -/
def Mode.Lasts : Mode → List Char → Prop
  | normal, _ => True
  | string quote _, cs => quote ∉ cs
  | reference _, _ => False

/-- A mode that lasts goes on to last as the source gets shorter. -/
theorem Mode.Lasts.of_subset {m : Mode} {cs ds : List Char} (h : m.Lasts cs) (hds : ds ⊆ cs) :
    m.Lasts ds := by
  cases m with
  | normal => trivial
  | string _ _ => exact fun hmem ↦ h (hds hmem)
  | reference _ => exact h

namespace Lexer

variable {bottom : Mode} {l l' l'' : Lexer} {t u : Token} {L : Layer} {ts us : List Token}

/-- An answer that is no token leaves the modes as they are. -/
theorem Stops.modes (h : l.Stops) : l.next.2.modes = l.modes := by
  cases hend : l.atTemplateEnd with
  | true => rw [next_of_atTemplateEnd hend]
  | false =>
    rw [Stops, next_of_not_atTemplateEnd hend] at h
    have hshift : l.scan.shift = .stay := by
      obtain hs | ⟨e, hs⟩ := h
      · exact (scan_guided hs).eq_stay rfl
      · exact scan_error hs
    rw [next_of_not_atTemplateEnd hend]
    simp only [hshift, Shift.apply]

/-- A mode that lasts is not closed. -/
theorem not_closed_of_lasts (h : l.mode.Lasts l.cursor.rest) (hs : l.scan.outcome = .ok t) :
    ¬ L.Encloses u l.mode.layer t := by
  intro henc
  have hsuffix : l.start.rest <:+ l.cursor.rest := ⟨_, l.blanks_append_start⟩
  cases hm : l.mode with
  | normal =>
    rw [hm] at henc
    cases henc
  | string quote opened =>
    rw [hm] at h henc
    cases henc with
    | string => exact h (hsuffix.subset (quote_mem_of_strEnd hm hs))
  | reference _ =>
    rw [hm] at h
    exact h

/-- The modes of a lexer stand in order, and the one at the bottom is there to stay. -/
structure Keeps (bottom : Mode) (l : Lexer) : Prop where
  stacked : Stacked bottom l.modes
  lasts : bottom.Lasts l.cursor.rest

namespace Keeps

/-- **A token opens a mode or closes one, or is of the mode that it is read in.** -/
theorem step (h : l.Keeps bottom) (hn : l.next = (.ok t, l')) (ht : t ≠ .eof) :
    Mode.Step l.modes t l'.modes := by
  obtain ⟨hs, -, -, hmodes, -⟩ := of_token hn ht
  have hturns := scan_turned hs ht
  have hstacked := h.stacked
  cases hms : l.modes with
  | nil =>
    rw [hms] at hstacked
    cases hstacked
  | cons m ms =>
    have hm := mode_of_modes hms
    rw [hms] at hstacked hmodes
    rw [hmodes]
    generalize hshift : l.scan.shift = shift at hturns
    cases hturns with
    | stay hadm => exact .stay (hm ▸ hadm)
    | enter henc => exact .enter (hm ▸ henc)
    | leave henc =>
      cases ms with
      | nil =>
        cases hstacked with
        | bottom => exact absurd henc (not_closed_of_lasts (hm ▸ h.lasts) hs)
      | cons n ms => exact .leave (hstacked.encloses (hm ▸ henc))

/-- **Every answer leaves the modes in order**, a token and the end as well as an error. -/
theorem next (h : l.Keeps bottom) : l.next.2.Keeps bottom where
  stacked := by
    by_cases hstops : l.Stops
    · exact hstops.modes ▸ h.stacked
    · obtain ⟨t, l', hn, ht⟩ := exists_token_of_not_stops hstops
      rw [hn]
      exact h.stacked.step (h.step hn ht)
  lasts := by
    obtain ⟨n, hn⟩ := l.next_cursor
    exact h.lasts.of_subset (hn ▸ List.drop_subset n _)

theorem run (h : l.Keeps bottom) (n : Nat) : (l.run n).Keeps bottom := by
  induction n with
  | zero => exact h
  | succ n ih =>
    rw [run_succ]
    exact ih.next

/-- Where the source ends, nothing is open but the mode at the bottom. -/
theorem modes_of_eof (h : l.Keeps bottom) (heof : l.next.1 = .ok .eof) : l.modes = [bottom] := by
  have hstacked := h.stacked
  obtain hend | ⟨hm, -⟩ := next_eq_eof_iff.1 heof
  · rw [atTemplateEnd, Bool.and_eq_true, Bool.and_eq_true, beq_iff_eq] at hend
    have hlength := hend.1.2
    generalize l.modes = ms at hstacked hlength
    cases hstacked with
    | bottom => rfl
    | string _ _ | reference _ _ | stringReference _ _ _ => cases hlength
  · rw [mode] at hm
    generalize l.modes = ms at hstacked hm
    cases hstacked with
    | bottom => rfl
    | string _ _ | reference _ _ | stringReference _ _ _ => cases hm

end Keeps

end Lexer

/-! ## What stands behind a token

That no text follows text is settled by where the first text has ended, which no mode remembers.  So
it is a fact about two answers in a row, and the invariant has to carry it for the next token as
well: it is the field `follows` of `Lexer.Bracketed`. -/

/-- What a token may be like in view of the token before it: text goes on until something else
comes, and an argument goes up to the brace that closes the reference. -/
structure Token.Follows (last : Option Token) (t : Token) : Prop where
  text : ∀ s s', last = some (.strText s) → t ≠ .strText s'
  argument : ∀ arg, last = some (.varArg arg) → t = .varEnd

/-- What a layer admits at its front it admits behind a token that lets it stand there. -/
theorem Layer.Admits.of_follows {L : Layer} {last : Option Token} {t : Token}
    (h : L.Admits none t) (hlast : Token.Follows last t) : L.Admits last t := by
  cases h with
  | plain ht => exact .plain ht
  | text hs _ => exact .text hs fun s' heq ↦ hlast.text s' _ heq rfl
  | backref n => exact .backref n
  | name s _ => exact .name s fun arg heq ↦ nomatch hlast.argument arg heq
  | argument arg _ => exact .argument arg fun arg' heq ↦ nomatch hlast.argument arg' heq

namespace Lexer

variable {bottom : Mode} {l l' l'' : Lexer} {t u : Token} {ts us : List Token}

/-- An argument is read up to a brace, so the brace comes next. -/
theorem varEnd_of_next_argument {opened : Nat} {arg : String} (hm : l.mode = .reference opened)
    (h : l.next = (.ok (.varArg arg), l')) (h' : l'.next = (.ok u, l'')) (hu : u ≠ .eof) :
    u = .varEnd := by
  obtain ⟨-, y, -, -, hr, -, hmodes⟩ := next_argument hm h
  have hm' : l'.mode = .reference opened := by rw [mode, hmodes, ← mode, hm]
  have hstart : l'.start.rest = '\x7d' :: y :=
    start_of_blanks (b := []) (by simp) hr (fun _ ↦ rfl) fun _ _ _ ↦ rfl
  have hs := (of_token h' hu).1
  rw [scan, hm', hstart] at hs
  exact (Except.ok.inj hs).symm

/-- **A token stands where the token before it lets it stand.** -/
theorem follows_of_next (h : l.next = (.ok t, l')) (ht : t ≠ .eof) (h' : l'.next = (.ok u, l''))
    (hu : u ≠ .eof) : Token.Follows (some t) u := by
  have hturns := scan_turned (of_token h ht).1 ht
  constructor
  · rintro s s' ⟨⟩ rfl
    obtain ⟨quote, opened, hm⟩ := hturns.mode_of_text
    exact text_apart hm h h'
  · rintro arg ⟨⟩
    obtain ⟨opened, hm⟩ := hturns.mode_of_argument
    exact varEnd_of_next_argument hm h h' hu

/-! ## What has been read

Here the tokens and the modes are brought together, and what holds of any run is read off. -/

/-- A lexer and the tokens `ts` that have been read up to it: each mode that is open is one layer
that has been begun. -/
structure Bracketed (bottom : Mode) (ts : List Token) (l : Lexer) : Prop where
  keeps : l.Keeps bottom
  unclosed : Unclosed bottom.layer (l.modes.map Mode.layer) ts
  follows : ∀ t l', l.next = (.ok t, l') → t ≠ .eof → Token.Follows ts.getLast? t

namespace Bracketed

/-- Where nothing has been read, nothing has been opened. -/
theorem of_modes (hl : l.modes = [bottom]) (hlasts : bottom.Lasts l.cursor.rest) :
    l.Bracketed bottom [] where
  keeps := ⟨hl ▸ .bottom bottom, hlasts⟩
  unclosed := hl ▸ .bottom (.nil _)
  follows _ _ _ _ := ⟨nofun, nofun⟩

theorem next (h : l.Bracketed bottom ts) (hn : l.next = (.ok t, l')) (ht : t ≠ .eof) :
    l'.Bracketed bottom (ts ++ [t]) where
  keeps := by
    have hkeeps := h.keeps.next
    rwa [hn] at hkeeps
  unclosed := by
    have hunclosed := h.unclosed
    have hfollows := h.follows t l' hn ht
    have hstep := h.keeps.step hn ht
    generalize l.modes = ms at hunclosed hstep
    generalize l'.modes = ms' at hstep
    cases hstep with
    | stay hadm => exact hunclosed.token (hadm.of_follows hfollows)
    | enter henc => exact hunclosed.inside henc (.nil _)
    | leave henc => exact hunclosed.leave henc
  follows u l'' hn' hu := by
    rw [List.getLast?_concat]
    exact follows_of_next hn ht hn' hu

/-- **What holds of the tokens read so far holds when more have been read.** -/
theorem reads (h : l.Bracketed bottom ts) (hr : l.Reads us l') :
    l'.Bracketed bottom (ts ++ us) := by
  induction hr generalizing ts with
  | done l => exact (List.append_nil ts).symm ▸ h
  | more hn ht _ ih =>
    have hnext := ih (h.next hn ht)
    rwa [List.append_assoc, List.singleton_append] at hnext

end Bracketed

/-- What a lexer does that begins with the mode `bottom`, however often it is asked. -/
structure WellBracketed (bottom : Mode) (l : Lexer) : Prop where
  modes : ∀ n, Stacked bottom (l.run n).modes
  stops : ∃ ts l', l.Reads ts l' ∧ l'.Stops
  /-- What has been read, up to an error or anything before it, is the front of what is balanced. -/
  balanced : ∀ ts l', l.Reads ts l' → ∃ rest, Balanced bottom.layer (ts ++ rest)
  /-- At the end of the source nothing is left open. -/
  finish : ∀ ts l', l.Reads ts l' → l'.next.1 = .ok .eof →
    Balanced bottom.layer ts ∧ l'.modes = [bottom]
  texts : ∀ ts l', l.Reads ts l' → (∀ s, .strText s ∈ ts → s ≠ "") ∧
    ts.IsChain fun t u ↦ ¬ (t.isText = true ∧ u.isText = true)
  /-- Only a condition has strings with quotes. -/
  quotes : bottom ≠ .normal → ∀ ts l', l.Reads ts l' → .strBegin ∉ ts ∧ .strEnd ∉ ts

theorem Bracketed.wellBracketed (h : l.Bracketed bottom []) : l.WellBracketed bottom := by
  have hreads (ts : List Token) (l' : Lexer) (hr : l.Reads ts l') : l'.Bracketed bottom ts :=
    h.reads hr
  have hbalanced (ts : List Token) (l' : Lexer) (hr : l.Reads ts l') :
      ∃ rest, Balanced bottom.layer (ts ++ rest) := (hreads ts l' hr).unclosed.exists_balanced
  refine ⟨fun n ↦ (h.keeps.run n).stacked, l.exists_reads_stops, hbalanced, fun ts l' hr heof ↦ ?_,
    fun ts l' hr ↦ ?_, fun hbottom ts l' hr ↦ ?_⟩
  · have hl' := hreads ts l' hr
    have hmodes := hl'.keeps.modes_of_eof heof
    have hunclosed := hl'.unclosed
    rw [hmodes] at hunclosed
    exact ⟨hunclosed.balanced, hmodes⟩
  · obtain ⟨rest, hrest⟩ := hbalanced ts l' hr
    exact ⟨fun s hs ↦ hrest.text_ne_empty (List.mem_append_left rest hs),
      hrest.text_apart.left_of_append⟩
  · obtain ⟨rest, hrest⟩ := hbalanced ts l' hr
    have hquotes := hrest.quotes_notMem (mt Mode.eq_normal_of_layer hbottom)
    exact hquotes.imp (mt (List.mem_append_left rest)) (mt (List.mem_append_left rest))

/-- **The tokens of a source are bracketed**, as far as it can be read, be it read as a condition
or, if it has no NUL, as a template. -/
theorem tokens_wellBracketed :
    (∀ source, (condition source).WellBracketed .normal) ∧
      ∀ source, '\x00' ∉ source.toList → (ofTemplate source).WellBracketed (.string '\x00' 0) := by
  refine ⟨fun source ↦ ?_, fun source hnul ↦ ?_⟩
  · have hbegin : (condition source).Bracketed .normal [] := .of_modes rfl trivial
    exact hbegin.wellBracketed
  · have hbegin : (ofTemplate source).Bracketed (.string '\x00' 0) [] := .of_modes rfl hnul
    exact hbegin.wellBracketed

/-- A template with text, a reference and a group. -/
theorem tokens_wellBracketed_reference :
    '\x00' ∉ "a%\x7bb:c\x7d$1".toList ∧
      (ofTemplate "a%\x7bb:c\x7d$1").WellBracketed (.string '\x00' 0) :=
  have hnul : '\x00' ∉ "a%\x7bb:c\x7d$1".toList := by decide
  ⟨hnul, tokens_wellBracketed.2 _ hnul⟩

/-- A NUL closes a template, with nothing that has opened it. -/
example : (ofTemplate "\x00").next.1 = .ok .strEnd := by decide

end Lexer

end RequestCondition

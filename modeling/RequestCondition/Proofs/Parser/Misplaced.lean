import RequestCondition.Proofs.Lexer.Spelling
import RequestCondition.Proofs.Parser.Acceptance
import RequestCondition.Proofs.Parser.FirstError

/-!
# Where errors about misplaced tokens point

A parser that fails at a misplaced token has read some tokens that can be finished to a condition
(`Parser.whole_fails`).  Those tokens are the beginning of a source, and what finishes them can be
written down behind it: first the lexer reads what it has read (`Lexer.Reads.splice`), because what
is written down goes on with none of it (`replaces_spell`), and then what is written down
(`Lexer.tokenizes_spell`).

So an error points at the first token that no condition goes on with: `Expression.parse_misplaced`.

The statement is about sources and not about tokens, and `Expression.FirstMisplaced` has one field
for each part of it.  The token stands where the error points.  The text up to there is the
beginning of a condition, one in which the same tokens are read from it.  And no condition has these
tokens and the misplaced one in front, however they are spelled.

What is written down starts right behind the text that is kept, without the blanks that stand before
the misplaced token.  It depends on the place whether that is safe.  Among the tokens of a condition
it starts with a blank (`soft_spell`).  In a string it starts with the quote, since that is the only
filler there, and in a reference with the brace.  One place is left, between the opening of a
reference and its name: the opening is a token that enters a mode, and behind such a token anything
may stand.
-/

set_option autoImplicit false

namespace RequestCondition

open Phrase (Filler)
open Place (At Step Steps)
open Token (spell)

namespace Lexer

variable {l l' : Lexer} {t : Token} {ts us : List Token} {P : Place} {quote : Char}

/-! ## What finishes a condition goes on with nothing

Each place has its fillers, and most places have just one. -/

/-- Among the tokens of a condition a filler stands behind a blank. -/
theorem margin_of_condition {Q : Place} (h : Step .condition t Q) (ht : Filler t) :
    t.margin = [' '] := by
  generalize hP : Place.condition = P at h
  cases ht with
  | varEnd =>
    cases h with
    | plain ht => cases ht
    | closeReference _ => cases hP
  | strEnd =>
    cases h with
    | plain ht => cases ht
    | closeString => cases hP
  | _ => rfl

/-- In a string there is one filler, its quote. -/
theorem eq_strEnd_of_string {Q : Place} (h : Step .string t Q) (ht : Filler t) : t = .strEnd := by
  generalize hP : Place.string = P at h
  cases ht with
  | strEnd => rfl
  | _ => cases h <;> cases hP

/-- Behind a name there is one filler, the brace. -/
theorem eq_varEnd_of_named {b : Bool} {Q : Place} (h : Step (.named b) t Q) (ht : Filler t) :
    t = .varEnd := by
  generalize hP : Place.named b = P at h
  cases ht with
  | varEnd => rfl
  | _ => cases h <;> cases hP

/-- What is written down in a condition starts with a blank, if there is anything. -/
theorem soft_spell {Q : Place} (h : ∀ t ∈ us, Filler t) (hsteps : Steps .condition us Q) :
    Soft (spell quote us) := by
  cases hsteps with
  | nil => rfl
  | @cons _ _ _ t us hstep _ =>
    rw [spell, List.flatMap_cons, margin_of_condition hstep (h t List.mem_cons_self)]
    exact Soft.cons_iff.2 rfl

/-- What is written down in a string starts with its quote. -/
theorem spell_of_string (h : ∀ t ∈ us, Filler t) (hsteps : Steps .string us .condition) :
    ∃ cs, spell quote us = quote :: cs := by
  cases hsteps with
  | @cons _ _ _ t us hstep _ =>
    obtain rfl := eq_strEnd_of_string hstep (h t List.mem_cons_self)
    exact ⟨_, rfl⟩

theorem spell_of_named {b : Bool} (h : ∀ t ∈ us, Filler t)
    (hsteps : Steps (.named b) us .condition) :
    ∃ cs, spell quote us = '\x7d' :: cs := by
  cases hsteps with
  | @cons _ _ _ t us hstep _ =>
    obtain rfl := eq_varEnd_of_named hstep (h t List.mem_cons_self)
    exact ⟨_, rfl⟩

/-- A name stands right behind the opening of a reference. -/
theorem eq_varBegin_of_name {b : Bool} {P : Place} (h : Step P t (.name b)) : t = .varBegin := by
  generalize hQ : Place.name b = Q at h
  cases h with
  | openReference _ => rfl
  | closeReference b' => cases b' <;> cases hQ
  | _ => cases hQ

/-- What is written down to finish a condition goes on with no token before it. -/
theorem replaces_spell (hus : ∀ t ∈ us, Filler t) (hts : Steps .condition ts P)
    (hsteps : Steps P us .condition) (hq : IsQuote quote) (hat : At quote P l'.modes)
    (ht : ts.getLast? = some t) (hl : l.template = false) (hn : l.next = (.ok t, l'))
    (hstay : l.scan.shift = .stay) :
    l.mode.Replaces l'.cursor.rest (l'.blanks ++ spell quote us) := by
  rw [← mode_eq_of_stay hl hn hstay]
  cases P with
  | condition =>
    rw [hat.mode_condition]
    refine Loose.of_soft (nextIs_append_of_blank (fun _ ↦ isBlank_of_mem_blanks) ?_
      (soft_spell hus hsteps))
    intro c hc
    rw [hc]
    rfl
  | string =>
    obtain ⟨opened, hm⟩ := hat.mode_string
    obtain ⟨cs, hcs⟩ : ∃ cs, spell quote us = quote :: cs := spell_of_string hus hsteps
    rw [hm, blanks_of_string hm, hcs]
    exact Closed.of_quote hq
  | name b =>
    -- the last token is the opening of the reference, which does not leave the modes as they are
    obtain ⟨P, hlast⟩ := hts.last ht
    obtain rfl := eq_varBegin_of_name hlast
    have hshift := (scan_guided (of_next hl hn).1).eq_enter
    rw [hstay] at hshift
    cases hshift
  | named b =>
    obtain ⟨opened, hm⟩ := hat.mode_named
    obtain ⟨cs, hcs⟩ : ∃ cs, spell quote us = '\x7d' :: cs := spell_of_named hus hsteps
    rw [hm, hcs]
    refine ⟨fun _ ↦ nextIs_append_of_blank (fun _ ↦ isBlank_of_mem_blanks)
      (fun _ ↦ isWordChar_of_isBlank) rfl, fun hbrace ↦ ?_⟩
    by_cases hb : l'.blanks = []
    · rw [hb]
      rfl
    · rw [← l'.blanks_append_start] at hbrace
      exact (nextIs_append hb _ _ _).trans hbrace

end Lexer

/-! ## Errors

The place of an error is counted in bytes from the start, and what is written down is put behind the
characters up to there. -/

namespace Lexer

variable {source : String} {l : Lexer} {ts us : List Token}

/-- The bytes before the next token and those behind are all there are. -/
theorem utf8Length_add_start (h : (condition source).Reads ts l) :
    l.start.offset + utf8Length l.start.rest = utf8Length source.toList := by
  obtain ⟨n, hn⟩ := h.cursor_eq_past
  obtain ⟨m, hm⟩ := l.start_eq_past
  rw [hm, hn, Cursor.offset_add_utf8Length_past, Cursor.offset_add_utf8Length_past]
  exact Nat.zero_add _

/-- **What has been read of a source can be finished**, if its tokens can: the source up to the next
token and what finishes them written down are the beginning and the end of another.  That one has
the same tokens up to there, because what is written down goes on with none of them. -/
theorem Reads.finish (h : (condition source).Reads ts l) (hus : ∀ t ∈ us, Filler t)
    (hsteps : Steps .condition (ts ++ us) .condition) :
    ∃ before after, source.toList = before ++ l.start.rest ∧ utf8Length before = l.start.offset ∧
      ∃ l', (condition (String.ofList (before ++ after))).Reads ts l' ∧ l'.Tokenizes us := by
  obtain ⟨P, hts, hus'⟩ := hsteps.split
  have hfirst : At '"' .condition (condition source).modes := .condition
  obtain ⟨quote, hq, hat, hl⟩ := hfirst.reads (.inl rfl) rfl h hts
  have hw := nextIs_spell hq hus
  have hdigit : nextIs isDigit (spell quote us) = false := nextIs_isDigit_of_isWordChar hw
  obtain ⟨u, hu, -, hreads⟩ := h.splice rfl hdigit
    fun ht hl₁ hn hstay ↦ replaces_spell hus hts hus' hq hat ht hl₁ hn hstay
  have hlen := utf8Length_add_start h
  have hsource : source.toList = u ++ l.start.rest := hu
  refine ⟨u, spell quote us, hsource, ?_, l.withRest (l.blanks ++ spell quote us), ?_, ?_⟩
  · rw [hsource, utf8Length_append] at hlen
    omega
  · have hcursor : (condition source).withRest (u ++ spell quote us) =
        condition (String.ofList (u ++ spell quote us)) := by
      rw [withRest, condition, condition, Cursor.ofText, Cursor.ofText, String.toList_ofList]
    rwa [hcursor] at hreads
  · exact tokenizes_spell hq hus hus' hat hl (fun _ ↦ isBlank_of_mem_blanks) rfl
      fun _ _ hm ↦ blanks_of_string hm

end Lexer

namespace Expression

variable {source : String} {options : ParseOptions} {e : ParseError}

/-- Tokens are misplaced where the parser finds them so. -/
theorem failed_of_parse (h : parse source options = .error e) (he : e.Misplaced) :
    ∃ p r, Parser.ofLexer (.condition source) options = .ok p ∧ Parser.whole p = .error e r := by
  rw [parse] at h
  cases hp : Parser.ofLexer (.condition source) options with
  | error e' =>
    rw [hp] at h
    obtain rfl := Except.error.inj h
    cases hn : (Lexer.condition source).next.1 with
    | ok t =>
      obtain ⟨p, hp', -⟩ := Parser.ofLexer_of_ok (o := options) hn
      rw [hp] at hp'
      cases hp'
    | error e'' =>
      rw [Parser.ofLexer_of_error hn] at hp
      obtain rfl := Except.error.inj hp
      cases he.1
  | ok p =>
    rw [hp] at h
    cases hw : Parser.whole p with
    | ok a q =>
      simp only [hw] at h
      cases h
    | error e' r =>
      simp only [hw] at h
      obtain rfl := Except.error.inj h
      exact ⟨p, r, rfl, hw⟩

/-- The token `t` stands at an offset of a source, behind the tokens `ts`, and is the first that no
condition goes on with. -/
structure FirstMisplaced (source : String) (options : ParseOptions) (ts : List Token) (t : Token)
    (offset : Nat) : Prop where
  stands : ∃ l, (Lexer.condition source).Reads ts l ∧ l.next.1 = .ok t ∧
    l.next.2.tokenStart = offset
  atEnd : t = .eof → offset = source.utf8ByteSize
  /-- A condition starts as the source does up to the offset, and with the tokens `ts`. -/
  begun : ∃ before behind after x l, source = before ++ behind ∧ before.utf8ByteSize = offset ∧
    parse (before ++ after) options = .ok x ∧ (Lexer.condition (before ++ after)).Reads ts l
  /-- No condition starts with the tokens `ts` and `t`; the end of a source counts as a token. -/
  spoilt : ∀ source' x l, parse source' options = .ok x → (Lexer.condition source').Reads ts l →
    l.next.1 ≠ .ok t

/-- **Errors point at the first misplaced token.**  A source that is not read because of a token,
and not because too much is open at once, could have been finished to a condition in front of the
token that the error points at, and not behind it. -/
theorem parse_misplaced (h : parse source options = .error e) (hkind : e.kind = .grammar)
    (hdepth : e.cause ≠ .nestedTooDeeply) :
    ∃ ts t, FirstMisplaced source options ts t e.offset := by
  have he : e.Misplaced := ⟨hkind, hdepth⟩
  obtain ⟨p, r, hp, hw⟩ := failed_of_parse h he
  obtain ⟨hlook, hd, ho⟩ := Parser.looksAt_of_ofLexer hp
  obtain ⟨ts, q, hm, hoff, ⟨us, hus, a, ha⟩, hreplay⟩ := Parser.whole_fails hd ho hw he
  obtain ⟨l, hr, hlq⟩ := hlook.reads hm
  have hl : l.template = false := hr.template_eq rfl
  have hstart : l.start.offset = e.offset := by
    rw [← Lexer.tokenStart_next, ← hlq.offset, hoff]
  refine ⟨ts, q.current, ⟨l, hr, hlq.current, ?_⟩, fun heof ↦ ?_, ?_,
    fun source' x l' hx hr' ht' ↦ ?_⟩
  · rw [← hlq.offset, hoff]
  · have hlen := Lexer.utf8Length_add_start hr
    rw [(Lexer.of_eof hl (heof ▸ hlq.current)).2, utf8Length_nil, Nat.add_zero, hstart] at hlen
    rw [hlen, ← utf8ByteSize_ofList, String.ofList_toList]
  · obtain ⟨before, after, hsource, hlen, l', hr', l'', hr'', hend⟩ :=
      hr.finish hus (Place.of_disjunction ha)
    have htokens : (Lexer.condition (String.ofList (before ++ after))).Tokenizes (ts ++ us) :=
      ⟨l'', hr'.trans hr'', hend⟩
    rw [String.ofList_append] at htokens hr'
    refine ⟨String.ofList before, String.ofList l.start.rest, String.ofList after, _, l', ?_, ?_,
      parse_of_disjunction htokens ha, hr'⟩
    · rw [← String.ofList_append, ← hsource, String.ofList_toList]
    · rw [utf8ByteSize_ofList, hlen, hstart]
  · obtain ⟨p₁, q₁, a₁, hp₁, hw₁, -⟩ := parse_eq_ok_iff_exists.1 hx
    obtain ⟨hlook₁, hd₁, ho₁⟩ := Parser.looksAt_of_ofLexer hp₁
    obtain ⟨q', hm', hq'⟩ := hlook₁.moves hr' ht'
    have hcur : q'.current = q.current := by
      have := hq'.current
      rw [ht'] at this
      exact (Except.ok.inj this).symm
    obtain ⟨e', r', herr⟩ := hreplay ho₁ hm' hcur hd₁
    rw [herr] at hw₁
    cases hw₁

/-- Behind a word no other word can stand. -/
theorem parse_misplaced_words : ∃ ts t, FirstMisplaced "a b" {} ts t 2 :=
  have h : parse "a b" = .error ⟨.unexpected .endOfInput (.identifier "b"), 2⟩ := rfl
  parse_misplaced h rfl nofun

end Expression

end RequestCondition

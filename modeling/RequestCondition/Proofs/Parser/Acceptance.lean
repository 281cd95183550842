import RequestCondition.Expression
import RequestCondition.Proofs.Lexer.Reading
import RequestCondition.Proofs.Parser.Completeness

/-!
# Which sources are conditions

The parser takes its tokens from the stream of a lexer, and a stream gives what the lexer would
(`Lexer.stream_next`).  So a parser that starts at a lexer moves over the tokens that the lexer
reads: `Parser.LooksAt p l` says that `p` is at the token that `l` reads next, and moving on takes
one of them where it takes the other.

With what is known of the grammar, this settles which sources `Expression.parse` accepts and what it
makes of them (`parse_eq_ok_iff`).

The theorem is an equivalence between a run and a derivation, and each direction takes one half of
the comparison with the grammar.

* A source that is read has been moved over up to its end, so its tokens are known; that they are a
  condition is `level_reads`.
* The tokens of a condition can be moved over, as no error stands among them.  At the end comes the
  end of the source, which ends every phrase, so `level_accepts` applies.

The count of open constructs starts at zero.  So the grammar that reads the source has as many
levels as may be open at once, and the bound in the theorem is that number and not one that depends
on the source.
-/

set_option autoImplicit false

namespace RequestCondition

namespace Parser

variable {o : ParseOptions} {p q : Parser} {l l' : Lexer} {ts : List Token}

/-! ## Parsers and lexers

A parser has read one token more than it has moved over, namely the one it looks at.  `LooksAt`
takes care of that. -/

/-- `p` looks at the token that `l` reads next, and has the answers behind it in front. -/
structure LooksAt (p : Parser) (l : Lexer) : Prop where
  current : l.next.1 = .ok p.current
  offset : p.offset = l.next.2.tokenStart
  lexemes : p.lexemes = l.next.2.stream

/-- In front of a stream a parser moves to the first token of its lexer. -/
theorem advance_of_stream_ok {t : Token} (h : p.lexemes = l.stream) (ht : l.next.1 = .ok t) :
    ∃ q, advance p = .ok () q ∧ LooksAt q l := by
  have hn : p.lexemes.next = (⟨.ok t, l.next.2.tokenStart⟩, l.next.2.stream) := by
    rw [h, Lexer.stream_next, ht]
  exact ⟨_, advance_eq_ok_iff.2 ⟨t, _, _, hn, rfl⟩, ht, rfl, rfl⟩

namespace LooksAt

theorem of_advance (h : LooksAt p l) (ha : advance p = .ok () q) : LooksAt q l.next.2 := by
  obtain ⟨t, start, s, hn, rfl⟩ := advance_eq_ok_iff.1 ha
  rw [h.lexemes, Lexer.stream_next] at hn
  obtain ⟨hx, hs⟩ := Prod.mk.inj hn
  obtain ⟨ht, hstart⟩ := Lexeme.mk.inj hx
  exact ⟨ht, hstart.symm, hs.symm⟩

theorem advance (h : LooksAt p l) {t : Token} (ht : l.next.2.next.1 = .ok t) :
    ∃ q, Parser.advance p = .ok () q ∧ LooksAt q l.next.2 :=
  advance_of_stream_ok h.lexemes ht

theorem reads (h : LooksAt p l) (hm : Moves p ts q) : ∃ l', l.Reads ts l' ∧ LooksAt q l' := by
  induction hm generalizing l with
  | stay p => exact ⟨l, .done l, h⟩
  | step hp ha _ ih =>
    obtain ⟨l', hl, hq⟩ := ih (h.of_advance ha)
    exact ⟨l', .more (Prod.ext h.current rfl) hp hl, hq⟩

/-- What the lexer reads the parser moves over, if no error follows it. -/
theorem moves (h : LooksAt p l) (hr : l.Reads ts l') {t : Token} (ht : l'.next.1 = .ok t) :
    ∃ q, Moves p ts q ∧ LooksAt q l' := by
  induction hr generalizing p with
  | done l => exact ⟨p, .stay p, h⟩
  | @more l l₁ l₂ u us hn hu hr ih =>
    have hp : p.current = u := by
      have := h.current
      rw [hn] at this
      exact (Except.ok.inj this).symm
    obtain ⟨v, hv⟩ : ∃ v, l₁.next.1 = .ok v := by
      cases hr with
      | done _ => exact ⟨t, ht⟩
      | more hn' _ _ => exact ⟨_, congrArg Prod.fst hn'⟩
    have hl₁ : l.next.2 = l₁ := congrArg Prod.snd hn
    rw [← hl₁] at hv
    obtain ⟨p₁, ha, hp₁⟩ := h.advance hv
    rw [hl₁] at hp₁
    obtain ⟨q, hm, hq⟩ := ih hp₁ ht
    exact ⟨q, .cons hp hu ha hm, hq⟩

end LooksAt

/-- A parser starts at the first token of its lexer, with nothing open. -/
theorem ofLexer_of_ok {t : Token} (h : l.next.1 = .ok t) :
    ∃ p, ofLexer l o = .ok p ∧ LooksAt p l ∧ p.depth = 0 ∧ p.options = o := by
  refine ⟨⟨l.next.2.stream, t, l.next.2.tokenStart, 0, o⟩, ?_, ⟨h, rfl, rfl⟩, rfl, rfl⟩
  rw [ofLexer, Lexer.stream_next, h]

theorem ofLexer_of_error {e : LexError} (h : l.next.1 = .error e) :
    ofLexer l o = .error (.ofLexError e) := by
  rw [ofLexer, Lexer.stream_next, h]

/-- What is known of a parser at its start. -/
theorem looksAt_of_ofLexer (h : ofLexer l o = .ok p) :
    LooksAt p l ∧ p.depth = 0 ∧ p.options = o := by
  cases hn : l.next.1 with
  | error e =>
    rw [ofLexer_of_error hn] at h
    cases h
  | ok t =>
    obtain ⟨p', hp', hl⟩ := ofLexer_of_ok (o := o) hn
    rw [h] at hp'
    obtain rfl := Except.ok.inj hp'
    exact hl

/-- A parser moves over the tokens of its source to the end. -/
theorem ofLexer_of_tokenizes (hts : l.Tokenizes ts) : ∃ p q, ofLexer l o = .ok p ∧
    Moves p ts q ∧ q.current = .eof ∧ p.depth = 0 ∧ p.options = o := by
  obtain ⟨l', hr, hend⟩ := hts
  obtain ⟨t, ht⟩ : ∃ t, l.next.1 = .ok t := by
    cases hr with
    | done _ => exact ⟨_, hend⟩
    | more h _ _ => exact ⟨_, congrArg Prod.fst h⟩
  obtain ⟨p, hp, hl, hd, ho⟩ := ofLexer_of_ok (o := o) ht
  obtain ⟨q, hm, hq⟩ := hl.moves hr hend
  have hqe := hq.current
  rw [hend] at hqe
  exact ⟨p, q, hp, hm, (Except.ok.inj hqe).symm, hd, ho⟩

/-! ## Whole sources

What remains is that nothing may stand behind a condition. -/

/-- A parser at its start reads a source by the grammar for as many constructs as may be open at
once. -/
theorem whole_eq (h : p.depth = 0) : whole p =
    ((level maxNestingDepth).expression >>= fun e ↦
      check (· == .eof) >>= fun b ↦ if b then pure e else unexpected .endOfInput) p := by
  have hexp : expression p = (level maxNestingDepth).expression p := by
    rw [expression, get_bind, h, Nat.sub_zero]
  change EStateM.bind _ _ p = EStateM.bind _ _ p
  rw [EStateM.bind, EStateM.bind, hexp]

/-- **A parser at its start reads the conditions**, up to the end of the source.  One direction is
that what is read is a condition, the other that every condition is read.  The end ends everything,
so nothing is asked of what comes behind. -/
theorem whole_eq_ok_iff (hd : p.depth = 0) (ho : p.options = o) {e : Expr} :
    whole p = .ok e q ↔
      ∃ ts, Moves p ts q ∧ q.current = .eof ∧ Phrase.Disjunction o maxNestingDepth ts e := by
  rw [whole_eq hd, bind_eq_ok_iff]
  constructor
  · rintro ⟨e', q', h, hend⟩
    rw [check_bind] at hend
    by_cases hq : q'.current = .eof
    · rw [if_pos (by simpa using hq)] at hend
      obtain ⟨rfl, rfl⟩ := EStateM.Result.ok.inj hend
      obtain ⟨ts, hm, he, -⟩ := (level_reads maxNestingDepth).expression ho h
      exact ⟨ts, hm, hq, he⟩
    · rw [if_neg (by simpa using hq)] at hend
      cases hend
  · rintro ⟨ts, hm, hq, he⟩
    have hends : DisjunctionEnds ts.getLast? q.current := by
      rw [hq]
      exact ⟨⟨⟨.inr (.of_ne (by decide) (by decide)), rfl⟩, by decide⟩, by decide⟩
    refine ⟨e, q, (level_accepts maxNestingDepth).expression ho he hm hends, ?_⟩
    rw [check_bind, if_pos (by simpa using hq)]
    rfl

end Parser

namespace Expression

variable {source : String} {options : ParseOptions}

/-- What a source is read into, if it is read. -/
theorem parse_eq_ok_iff_exists {x : Expression} : parse source options = .ok x ↔
    ∃ p q e, Parser.ofLexer (.condition source) options = .ok p ∧ Parser.whole p = .ok e q ∧
      x = ⟨source, .condition, e⟩ := by
  rw [parse]
  cases hp : Parser.ofLexer (.condition source) options with
  | error e => simp
  | ok p =>
    cases hw : Parser.whole p with
    | error e q => simp [hw]
    | ok e q =>
      simp only [Except.ok.injEq, hw]
      constructor
      · rintro rfl
        exact ⟨p, q, e, rfl, hw, rfl⟩
      · rintro ⟨p', q', e', rfl, hw', rfl⟩
        rw [hw] at hw'
        obtain ⟨rfl, -⟩ := EStateM.Result.ok.inj hw'
        rfl

/-- What is read is a condition. -/
theorem disjunction_of_parse {x : Expression} (h : parse source options = .ok x) :
    x.source = source ∧ x.kind = .condition ∧
      ∃ ts, (Lexer.condition source).Tokenizes ts ∧
        Phrase.Disjunction options maxNestingDepth ts x.root := by
  obtain ⟨p, q, e, hp, hw, rfl⟩ := parse_eq_ok_iff_exists.1 h
  obtain ⟨hl, hd, ho⟩ := Parser.looksAt_of_ofLexer hp
  obtain ⟨ts, hm, hq, he⟩ := (Parser.whole_eq_ok_iff hd ho).1 hw
  obtain ⟨l, hr, hlq⟩ := hl.reads hm
  exact ⟨rfl, rfl, ts, ⟨l, hr, hq ▸ hlq.current⟩, he⟩

/-- A condition is read, and its tree is what it is read into. -/
theorem parse_of_disjunction {ts : List Token} {e : Expr}
    (hts : (Lexer.condition source).Tokenizes ts)
    (he : Phrase.Disjunction options maxNestingDepth ts e) :
    parse source options = .ok ⟨source, .condition, e⟩ := by
  obtain ⟨p, q, hp, hm, hq, hd, ho⟩ := Parser.ofLexer_of_tokenizes (o := options) hts
  exact parse_eq_ok_iff_exists.2
    ⟨p, q, e, hp, (Parser.whole_eq_ok_iff hd ho).2 ⟨ts, hm, hq, he⟩, rfl⟩

/-- **The parser accepts the conditions and nothing else**: a source is read into a tree exactly if
the lexer gets to its end without an error, and the tokens on the way are a condition with that
tree, of which every regex can be used and which has no more constructs open at once than are
allowed. -/
theorem parse_eq_ok_iff (source : String) (options : ParseOptions) (x : Expression) :
    parse source options = .ok x ↔ x.source = source ∧ x.kind = .condition ∧
      ∃ ts, (Lexer.condition source).Tokenizes ts ∧
        Phrase.Disjunction options maxNestingDepth ts x.root := by
  constructor
  · exact disjunction_of_parse
  · obtain ⟨source', kind, e⟩ := x
    rintro ⟨rfl, rfl, ts, hts, he⟩
    exact parse_of_disjunction hts he

end Expression

end RequestCondition

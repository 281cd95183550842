import RequestCondition.Proofs.Parser.Acceptance

/-!
# Two parsers side by side

Two runs *agree* when both succeed with the same value or both fail with errors of one kind.
`Parser.Agree R` says so of their results and asks that the states they end in are related by `R`,
so that what is done next can be compared in turn (`Agree.bind`).

The first use of it is that a parser does not look at offsets.  `Parser.Alike` relates states that
differ in nothing but places, and a parser is `Blind` if runs from such states agree.  Every step
is, and so is what is made of blind parsers; `whole_blind` says it of the grammar, by one lemma for
each of its functions.  So what a source is read into depends on its tokens alone, and not on where
they stand: `Expression.parse_agree`.

The relation is a parameter of `Agree` because it is used again with another one, for templates.  Of
an error only its kind is compared: it points at a place of one source, and there are two.

How a function of the grammar is shown to be blind follows its definition line by line: a step, and
for each thing that it may have seen what is done then.  Where a function looks at the state as a
whole, as loops do for their bound, it has to be said that it does the same with two states that are
alike (`blind_get`).  Nothing in these proofs depends on what is parsed.
-/

set_option autoImplicit false

namespace RequestCondition

/-! ## The same lexemes at other places

A lexeme has a place, and so has an error in it.  A stream without its places is a list of answers
and the answer that repeats. -/

/-- The answer of a lexeme, wherever it stands. -/
def Lexeme.answer (x : Lexeme) : Except LexCause Token := x.outcome.mapError LexError.cause

namespace LexemeStream

/-- Streams that differ in places only. -/
structure Alike (s s' : LexemeStream) : Prop where
  ahead : s.ahead.map Lexeme.answer = s'.ahead.map Lexeme.answer
  fault : s.fault.map LexError.cause = s'.fault.map LexError.cause

namespace Alike

variable {s s' : LexemeStream}

/-- The answers that repeat are the same. -/
theorem last (h : Alike s s') : s.last.answer = s'.last.answer := by
  have hfault := h.fault
  rw [LexemeStream.last, LexemeStream.last]
  cases hs : s.fault <;> cases hs' : s'.fault <;> rw [hs, hs'] at hfault
  · rfl
  · cases hfault
  · cases hfault
  · exact congrArg Except.error (Option.some.inj hfault)

/-- The next answers are the same, and so are the streams behind them. -/
theorem next (h : Alike s s') :
    s.next.1.answer = s'.next.1.answer ∧ Alike s.next.2 s'.next.2 := by
  have hahead := h.ahead
  rw [LexemeStream.next, LexemeStream.next]
  cases hs : s.ahead <;> cases hs' : s'.ahead <;> rw [hs, hs'] at hahead
  · exact ⟨h.last, h⟩
  · cases hahead
  · cases hahead
  · obtain ⟨hx, hxs⟩ := List.cons.inj hahead
    exact ⟨hx, hxs, h.fault⟩

theorem push (h : Alike s s') {x x' : Lexeme} (hx : x.answer = x'.answer) :
    Alike (s.push x) (s'.push x') :=
  ⟨congrArg₂ List.cons hx h.ahead, h.fault⟩

end Alike

end LexemeStream

namespace Lexer

/-- The tokens of a source are all there is to its stream, but for their places. -/
theorem stream_alike {l l' : Lexer} {ts : List Token} (h : l.Tokenizes ts) (h' : l'.Tokenizes ts) :
    l.stream.Alike l'.stream := by
  induction ts generalizing l l' with
  | nil =>
    obtain ⟨_, hr, hend⟩ := h
    obtain ⟨_, hr', hend'⟩ := h'
    cases hr
    cases hr'
    rw [stream_of_repeats (.inl hend), stream_of_repeats (.inl hend'), hend, hend']
    exact ⟨rfl, rfl⟩
  | cons t ts ih =>
    obtain ⟨_, hr, hend⟩ := h
    obtain ⟨_, hr', hend'⟩ := h'
    cases hr with
    | more hn ht hr =>
    cases hr' with
    | more hn' _ hr' =>
    rw [stream_of_next hn ht, stream_of_next hn' ht]
    exact (ih ⟨_, hr, hend⟩ ⟨_, hr', hend'⟩).push rfl

end Lexer

namespace Parser

variable {α β : Type}

/-! ## Runs that agree

`Agree` is about results and `Blind` about functions.  The first can be used for runs that start
differently, the second is for the grammar. -/

/-- Runs that end alike: with the same value in states that are related, or with errors of one
kind. -/
inductive Agree (R : Parser → Parser → Prop) :
    EStateM.Result ParseError Parser α → EStateM.Result ParseError Parser α → Prop
  | ok {q q' : Parser} (a : α) (h : R q q') : Agree R (.ok a q) (.ok a q')
  | error {e e' : ParseError} {q q' : Parser} (h : e.kind = e'.kind) :
      Agree R (.error e q) (.error e' q')

/-- Runs that agree can be gone on with in ways that agree. -/
theorem Agree.bind {R S : Parser → Parser → Prop} {x x' : ParserM α} {f f' : α → ParserM β}
    {p p' : Parser} (h : Agree R (x p) (x' p'))
    (hf : ∀ a {q q' : Parser}, x p = .ok a q → x' p' = .ok a q' → R q q' →
      Agree S (f a q) (f' a q')) : Agree S ((x >>= f) p) ((x' >>= f') p') := by
  generalize hx : x p = r at h
  generalize hx' : x' p' = r' at h
  cases h with
  | ok a h =>
    rw [bind_of_ok hx, bind_of_ok hx']
    exact hf a hx hx' h
  | error h =>
    rw [bind_of_error hx, bind_of_error hx']
    exact .error h

/-- States that differ in places only. -/
structure Alike (p p' : Parser) : Prop where
  lexemes : p.lexemes.Alike p'.lexemes
  current : p.current = p'.current
  depth : p.depth = p'.depth
  options : p.options = p'.options

theorem Alike.fuel {p p' : Parser} (h : Alike p p') : p.fuel = p'.fuel := by
  have := congrArg List.length h.lexemes.ahead
  rw [List.length_map, List.length_map] at this
  rw [Parser.fuel, Parser.fuel, this]

/-- A parser that does not look at offsets. -/
def Blind (f : ParserM α) : Prop := ∀ ⦃p p' : Parser⦄, Alike p p' → Agree Alike (f p) (f p')

/-- **What is done one after another is blind if each part is.** -/
theorem Blind.bind {x : ParserM α} {f : α → ParserM β} (hx : Blind x) (hf : ∀ a, Blind (f a)) :
    Blind (x >>= f) :=
  fun _ _ h ↦ (hx h).bind fun a _ _ _ _ hq ↦ hf a hq

/-! ## Steps

Of all the steps only the two that fail make use of an offset, and what they make of it has no part
in the kind of the error. -/

theorem blind_pure (a : α) : Blind (pure a) := fun _ _ h ↦ .ok a h

theorem Blind.map {x : ParserM α} (hx : Blind x) (f : α → β) : Blind (x.map f) := by
  intro p p' h
  have hr := hx h
  rw [EStateM.map, EStateM.map]
  generalize x p = r at hr
  generalize x p' = r' at hr
  cases hr with
  | ok a h => exact .ok (f a) h
  | error h => exact .error h

theorem blind_peek : Blind peek := fun p p' h ↦ by
  rw [peek, peek, h.current]
  exact .ok _ h

theorem blind_check (test : Token → Bool) : Blind (check test) := fun p p' h ↦ by
  rw [check, check, h.current]
  exact .ok _ h

theorem blind_failWith (cause : ParseCause) : Blind (failWith cause : ParserM α) :=
  fun _ _ _ ↦ .error rfl

theorem blind_unexpected (expected : Expectation) : Blind (unexpected expected : ParserM α) :=
  fun _ _ _ ↦ .error rfl

/-- Moving on gives the same token, or fails at lexemes that are both malformed. -/
theorem blind_advance : Blind advance := by
  intro p p' h
  obtain ⟨hx, hs⟩ := h.lexemes.next
  rw [advance, advance]
  rcases hn : p.lexemes.next with ⟨⟨e | t, start⟩, s⟩ <;>
    rcases hn' : p'.lexemes.next with ⟨⟨e' | t', start'⟩, s'⟩ <;> rw [hn, hn'] at hx hs
  · exact .error rfl
  · cases hx
  · cases hx
  · exact .ok () ⟨hs, Except.ok.inj hx, h.depth, h.options⟩

theorem blind_clear : Blind clear := fun _ _ h ↦ .ok () ⟨h.lexemes, rfl, h.depth, h.options⟩

theorem blind_discard : Blind discard :=
  fun _ _ h ↦ blind_advance ⟨h.lexemes, rfl, h.depth, h.options⟩

theorem blind_enter : Blind enter :=
  fun _ _ h ↦ .ok () ⟨h.lexemes, h.current, congrArg (· + 1) h.depth, h.options⟩

theorem blind_leave : Blind leave :=
  fun _ _ h ↦ .ok () ⟨h.lexemes, h.current, congrArg (· - 1) h.depth, h.options⟩

theorem blind_expect (t : Token) : Blind (expect t) :=
  (blind_check _).bind fun b ↦ by
    cases b with
    | false => exact blind_unexpected _
    | true => exact blind_advance

/-- What depends on a state in ways that places have no part in. -/
theorem blind_get {f : Parser → ParserM α} (hf : ∀ p, Blind (f p))
    (hcongr : ∀ {p p' : Parser}, Alike p p' → f p = f p') : Blind (get >>= f) := fun p p' h ↦ by
  rw [get_bind, get_bind, hcongr h]
  exact hf p' h

/-! ## Repetition

The bound of a loop is the number of lexemes that are left, which is the same for streams that are
alike. -/

/-- Operands that are joined from the left. -/
theorem moreOperands_blind {isOp : Token → Bool} {join : α → α → α} {item : ParserM α}
    (h : Blind item) (n : Nat) (left : α) : Blind (moreOperands isOp join item n left) := by
  induction n generalizing left with
  | zero => exact blind_pure left
  | succ n ih =>
    refine (blind_check isOp).bind fun b ↦ ?_
    cases b with
    | false => exact blind_pure left
    | true => exact blind_advance.bind fun _ ↦ h.bind fun right ↦ ih (join left right)

theorem chain_blind {isOp : Token → Bool} {join : α → α → α} {item : ParserM α} (h : Blind item) :
    Blind (chain isOp join item) := by
  refine h.bind fun left ↦ (blind_check isOp).bind fun b ↦ ?_
  cases b with
  | false => exact blind_pure left
  | true => exact blind_get (fun p ↦ moreOperands_blind h p.fuel left) fun h ↦ by rw [h.fuel]

/-- The items of a list. -/
theorem moreItems_blind {close : Token} {item : ParserM α} (h : Blind item) (n : Nat) :
    Blind (moreItems close item n) := by
  induction n with
  | zero => exact blind_pure []
  | succ n ih =>
    refine (blind_check _).bind fun b ↦ ?_
    cases b with
    | true => exact blind_pure []
    | false =>
      refine h.bind fun first ↦ (blind_check _).bind fun b ↦ ?_
      cases b with
      | true => exact blind_pure [first]
      | false => exact (blind_expect .comma).bind fun _ ↦ ih.bind fun others ↦ blind_pure _

theorem items_blind {close : Token} {item : ParserM α} (h : Blind item) :
    Blind (items close item) := by
  refine blind_get (fun p ↦ ?_) fun h ↦ by rw [h.fuel]
  exact (moreItems_blind h p.fuel).bind fun xs ↦ (blind_expect close).bind fun _ ↦ blind_pure xs

/-! ## References, strings and regex literals -/

theorem variableBody_blind : Blind variableBody := by
  refine blind_peek.bind fun t ↦ ?_
  split
  · refine blind_discard.bind fun _ ↦ blind_peek.bind fun t ↦ ?_
    split
    · exact blind_advance.bind fun _ ↦ (blind_expect .varEnd).bind fun _ ↦ blind_pure _
    · exact (blind_expect .varEnd).bind fun _ ↦ blind_pure _
  · exact blind_unexpected _

theorem moreParts_blind (close : Token) (expected : Expectation) (n : Nat) :
    Blind (moreParts close expected n) := by
  induction n with
  | zero => exact blind_pure []
  | succ n ih =>
    refine blind_peek.bind fun t ↦ ?_
    split
    · exact blind_discard.bind fun _ ↦ ih.bind fun others ↦ blind_pure _
    · exact blind_discard.bind fun _ ↦ ih.bind fun others ↦ blind_pure _
    · exact blind_discard.bind fun _ ↦ variableBody_blind.bind fun ref ↦ ih.bind fun others ↦
        blind_pure _
    · split
      · exact blind_pure []
      · exact blind_unexpected _

theorem stringBody_blind : Blind stringBody := by
  refine blind_get (fun p ↦ ?_) fun h ↦ by rw [h.fuel]
  exact (moreParts_blind .strEnd .stringPart p.fuel).bind fun parts ↦ blind_discard.bind fun _ ↦
    blind_pure _

theorem regexLiteral_blind : Blind regexLiteral := by
  refine blind_get (fun p ↦ ?_) fun h ↦ by rw [h.current, h.options]
  split
  · simp only
    split
    · exact blind_advance.bind fun _ ↦ blind_pure _
    · exact blind_failWith _
  · exact blind_unexpected _

/-! ## One level

What is below a level is blind, or there is nothing below it, and then so is the level. -/

/-- A grammar that does not look at offsets. -/
structure GrammarBlind (g : Grammar) : Prop where
  expression : Blind g.expression
  negation : Blind g.negation
  concat : Blind g.concat

variable {below : Option Grammar}

theorem nested_blind (hb : ∀ g ∈ below, GrammarBlind g) {inside : Grammar → ParserM α}
    (h : ∀ g, GrammarBlind g → Blind (inside g)) : Blind (nested below inside) := by
  cases below with
  | none => exact blind_failWith _
  | some g =>
    exact blind_enter.bind fun _ ↦ (h g (hb g rfl)).bind fun a ↦ blind_leave.bind fun _ ↦
      blind_pure a

/-- The token in front decides, and it is the same in both runs. -/
theorem operand_blind (hb : ∀ g ∈ below, GrammarBlind g) : Blind (operand below) := by
  refine blind_peek.bind fun t ↦ ?_
  split
  · exact blind_discard.bind fun _ ↦ blind_pure _
  · exact blind_discard.bind fun _ ↦ blind_pure _
  · exact blind_discard.bind fun _ ↦ stringBody_blind
  · exact blind_discard.bind fun _ ↦ variableBody_blind.bind fun ref ↦ blind_pure _
  · exact blind_discard.bind fun _ ↦ blind_pure _
  · refine blind_discard.bind fun _ ↦ (blind_check _).bind fun b ↦ ?_
    cases b with
    | false => exact blind_pure _
    | true =>
      exact nested_blind hb fun g hg ↦ blind_advance.bind fun _ ↦
        (items_blind hg.concat).bind fun args ↦ blind_pure _
  · exact blind_clear.bind fun _ ↦ nested_blind hb fun g hg ↦ blind_advance.bind fun _ ↦
      hg.expression.bind fun e ↦ (blind_expect .rparen).bind fun _ ↦ blind_pure e
  · exact blind_unexpected _
  · exact blind_failWith _
  · exact blind_unexpected _

theorem concatenation_blind (hb : ∀ g ∈ below, GrammarBlind g) : Blind (concatenation below) := by
  refine (chain_blind ((operand_blind hb).map _)).bind fun parts ↦ ?_
  split <;> exact blind_pure _

theorem relation_blind (hb : ∀ g ∈ below, GrammarBlind g) (left : Expr) :
    Blind (relation below left) := by
  have hconcat := concatenation_blind hb
  refine blind_peek.bind fun t ↦ ?_
  split
  · exact blind_advance.bind fun _ ↦ hconcat.bind fun right ↦ blind_pure _
  · exact blind_advance.bind fun _ ↦ regexLiteral_blind.bind fun regex ↦ blind_pure _
  · exact blind_advance.bind fun _ ↦ regexLiteral_blind.bind fun regex ↦ blind_pure _
  · exact blind_advance.bind fun _ ↦ (blind_expect .lbrace).bind fun _ ↦
      (items_blind hconcat).bind fun list ↦ blind_pure _
  · exact blind_advance.bind fun _ ↦ hconcat.bind fun right ↦ blind_pure _
  · exact blind_pure left

theorem clientTest_blind (hb : ∀ g ∈ below, GrammarBlind g) : Blind (clientTest below) := by
  refine blind_peek.bind fun t ↦ ?_
  split
  · exact regexLiteral_blind.bind fun regex ↦ blind_pure _
  · exact (concatenation_blind hb).bind fun network ↦ blind_pure _

theorem comparison_blind (hb : ∀ g ∈ below, GrammarBlind g) : Blind (comparison below) := by
  have hconcat := concatenation_blind hb
  have hend (e : Expr) : Blind (check isRelational >>= fun b ↦
      if b then unexpected .noSecondComparison else pure e) := by
    refine (blind_check _).bind fun b ↦ ?_
    cases b with
    | false => exact blind_pure e
    | true => exact blind_unexpected _
  refine blind_peek.bind fun t ↦ ?_
  split
  · refine blind_advance.bind fun _ ↦ ?_
    split
    · exact (clientTest_blind hb).bind hend
    · exact hconcat.bind fun e ↦ hend _
  · exact hconcat.bind fun left ↦ (relation_blind hb left).bind hend

theorem negation_blind (hb : ∀ g ∈ below, GrammarBlind g) : Blind (negation below) := by
  refine (blind_check _).bind fun b ↦ ?_
  cases b with
  | false => exact comparison_blind hb
  | true =>
    exact nested_blind hb fun g hg ↦ blind_advance.bind fun _ ↦ hg.negation.bind fun e ↦
      blind_pure _

theorem around_blind (hb : ∀ g ∈ below, GrammarBlind g) : GrammarBlind (around below) where
  expression := chain_blind (chain_blind (negation_blind hb))
  negation := negation_blind hb
  concat := concatenation_blind hb

/-- **Every level of the grammar is blind.** -/
theorem level_blind (n : Nat) : GrammarBlind (level n) := by
  induction n with
  | zero => exact around_blind nofun
  | succ n ih =>
    refine around_blind fun g hg ↦ ?_
    obtain rfl := Option.some.inj hg
    exact ih

/-! ## Whole sources -/

theorem expression_blind : Blind expression :=
  blind_get (fun _ ↦ (level_blind _).expression) fun h ↦ by rw [h.depth]

/-- **A parser does not look at offsets**: from states that differ in nothing else it reads the
same, or fails for a reason of the same kind. -/
theorem whole_blind : Blind whole := by
  refine expression_blind.bind fun e ↦ (blind_check _).bind fun b ↦ ?_
  cases b with
  | false => exact blind_unexpected _
  | true => exact blind_pure e

end Parser

namespace Expression

/-- Readings that come out alike: as trees that are equal, or as errors of one kind. -/
inductive Agree : Except ParseError Expression → Except ParseError Expression → Prop
  | ok {x x' : Expression} (h : x.root = x'.root) : Agree (.ok x) (.ok x')
  | error {e e' : ParseError} (h : e.kind = e'.kind) : Agree (.error e) (.error e')

/-- What a source is read into depends on its tokens alone. -/
theorem parse_agree {source source' : String} {ts : List Token}
    (h : (Lexer.condition source).Tokenizes ts) (h' : (Lexer.condition source').Tokenizes ts)
    (options : ParseOptions) : Agree (parse source options) (parse source' options) := by
  obtain ⟨hx, hs⟩ := (Lexer.stream_alike h h').next
  rw [parse, parse, Parser.ofLexer, Parser.ofLexer]
  rcases hn : (Lexer.condition source).stream.next with ⟨⟨e | t, start⟩, s⟩ <;>
    rcases hn' : (Lexer.condition source').stream.next with ⟨⟨e' | t', start'⟩, s'⟩ <;>
    rw [hn, hn'] at hx hs
  · exact .error rfl
  · cases hx
  · cases hx
  · have hp : Parser.Alike ⟨s, t, start, 0, options⟩ ⟨s', t', start', 0, options⟩ :=
      ⟨hs, Except.ok.inj hx, rfl, rfl⟩
    have hw := Parser.whole_blind hp
    simp only
    generalize Parser.whole ⟨s, t, start, 0, options⟩ = r at hw
    generalize Parser.whole ⟨s', t', start', 0, options⟩ = r' at hw
    cases hw with
    | ok e h => exact .ok rfl
    | error h => exact .error h

end Expression

end RequestCondition

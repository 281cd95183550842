import RequestCondition.Proofs.Lexer.Template
import RequestCondition.Proofs.Parser.FirstError
import RequestCondition.Proofs.Parser.Lockstep

/-!
# Templates are strings

A text that holds neither the quote nor a NUL is read as a template just as it is read between two
quotes: into the same tree, or with errors of one kind (`parseTemplate_agree_enquote`).

The lexers answer side by side (`Lexer.Quoted.answers`), and so the parsers run side by side:
`Parser.Facing` relates their states.  They meet one difference.  Where a backslash cuts the
template off, the string goes on for one more token and is found open behind that, so the runs agree
only a step later: `Parser.AgreesSoon`.

A NUL is the quote of a template, which nothing but the end may close.  So the NULs of a template
that is read are in the arguments of its references: `Lexer.InArgument`.

The first half is a simulation between two parsers, in which the functions are not the same: a
template is read by `template` up to the end of the source, and a string by `stringBody` up to its
quote.  Both are `moreParts`, with another token to close it and another error for what is no part.

* In front of each token the parsers are at the same token, or one is at the end and the other at
  the quote (`Facing.At`).  So the two loops choose the same branch.
* `AgreesSoon` is needed only for the step to a next token and for what ends with such a step.
  Whatever comes behind makes up for the difference, because a state that is `Doomed` leads to an
  error of the same kind (`AgreesSoon.bind`).
* The string is a condition by itself: in front of it the quote has to be read, and behind it the
  end is asked for (`whole_of_string_ok`, `whole_of_string_error`).

The second half follows the parts of a template and looks for a NUL.  It is in the text of one of
the tokens; in text and groups there is none, the opening, the name and the brace of a reference
have none, and so it is in an argument or behind the part (`inArgument_of_parts`).
-/

set_option autoImplicit false

namespace RequestCondition

namespace Parser

variable {α β : Type} {q : Char} {inside : Bool} {p p' r : Parser} {l m : Lexer}

/-! ## States side by side

What is needed of the lexers is what their next answers have in common, and the same is then known
of the parsers behind one step. -/

theorem advance_of_stream_error {e : LexError} (h : p.lexemes = l.stream)
    (he : l.next.1 = .error e) : ∃ r, advance p = .error (.ofLexError e) r := by
  rw [advance, h, Lexer.stream_next, he]
  exact ⟨_, rfl⟩

theorem discard_of_advance_error {e : ParseError} (h : advance p = .error e r) :
    ∃ r', discard p = .error e r' := by
  rw [advance] at h
  rw [discard, advance]
  rcases hn : p.lexemes.next with ⟨⟨e' | t, start⟩, s⟩
  · rw [hn] at h
    obtain ⟨rfl, -⟩ := EStateM.Result.error.inj h
    exact ⟨_, rfl⟩
  · rw [hn] at h
    cases h

/-- `p` is in a template where `p'` is in a string with the same text. -/
def Facing (q : Char) (inside : Bool) (p p' : Parser) : Prop :=
  ∃ l m, LooksAt p l ∧ LooksAt p' m ∧ Lexer.Quoted q inside l m

/-- `p` is at some text, and what stands behind it is malformed. -/
structure Doomed (p : Parser) : Prop where
  current : ∃ text, p.current = .strText text
  error : ∃ e r, advance p = .error e r

/-- Runs that agree, or of which the first fails and the second does so one token later. -/
inductive AgreesSoon (q : Char) (inside : Bool) :
    EStateM.Result ParseError Parser α → EStateM.Result ParseError Parser α → Prop
  | now {x x' : EStateM.Result ParseError Parser α} (h : Agree (Facing q inside) x x') :
      AgreesSoon q inside x x'
  | soon {e : ParseError} {r r' : Parser} (hinside : inside = false) (he : e.kind = .lexical)
      (a : α) (hr : Doomed r') : AgreesSoon q inside (.error e r) (.ok a r')

namespace AgreesSoon

theorem agree {x x' : EStateM.Result ParseError Parser α} (h : AgreesSoon q true x x') :
    Agree (Facing q true) x x' := by
  cases h with
  | now h => exact h
  | soon hinside => cases hinside

/-- What is done behind a step that agrees soon agrees, if it fails where the second state is
doomed. -/
theorem bind {R : Parser → Parser → Prop} {x x' : ParserM α} {f f' : α → ParserM β}
    (h : AgreesSoon q inside (x p) (x' p'))
    (hf : ∀ a {r r' : Parser}, x p = .ok a r → x' p' = .ok a r' → Facing q inside r r' →
      Agree R (f a r) (f' a r'))
    (hsoon : ∀ a {r' : Parser}, x' p' = .ok a r' → Doomed r' →
      ∃ e s, f' a r' = .error e s ∧ e.kind = .lexical) :
    Agree R ((x >>= f) p) ((x' >>= f') p') := by
  generalize hx : x p = y at h
  generalize hx' : x' p' = y' at h
  cases h with
  | now h => exact Agree.bind (hx ▸ hx' ▸ h) hf
  | soon _ he a hr =>
    obtain ⟨e', s, hs, he'⟩ := hsoon a hx' hr
    rw [bind_of_error hx, bind_of_ok hx', hs]
    exact .error (he.trans he'.symm)

/-- What agrees soon may come last. -/
theorem after {R : Parser → Parser → Prop} {x x' : ParserM α} {f f' : α → ParserM β}
    (h : Agree R (x p) (x' p'))
    (hf : ∀ a {r r' : Parser}, R r r' → AgreesSoon q inside (f a r) (f' a r')) :
    AgreesSoon q inside ((x >>= f) p) ((x' >>= f') p') := by
  generalize hx : x p = y at h
  generalize hx' : x' p' = y' at h
  cases h with
  | ok a h =>
    rw [bind_of_ok hx, bind_of_ok hx']
    exact hf a h
  | error h =>
    rw [bind_of_error hx, bind_of_error hx']
    exact .now (.error h)

/-- What is made of the value has no part in it. -/
theorem bind_pure {x x' : ParserM α} (h : AgreesSoon q inside (x p) (x' p')) (c : α → β) :
    AgreesSoon q inside ((x >>= fun a ↦ pure (c a)) p) ((x' >>= fun a ↦ pure (c a)) p') := by
  generalize hx : x p = y at h
  generalize hx' : x' p' = y' at h
  cases h with
  | now h => exact .now (Agree.bind (hx ▸ hx' ▸ h) fun a _ _ _ _ hr ↦ .ok (c a) hr)
  | soon hinside he a hr =>
    rw [bind_of_error hx, bind_of_ok hx']
    exact .soon hinside he (c a) hr

end AgreesSoon

/-- Parsers move on side by side where their lexers answer side by side. -/
theorem advance_agreesSoon (hq : IsQuote q) (hp : p.lexemes = l.stream)
    (hp' : p'.lexemes = m.stream) (h : Lexer.Quoted q inside l m) :
    AgreesSoon q inside (advance p) (advance p') := by
  cases h.answers hq with
  | token ht hn hn' _ =>
    obtain ⟨r, hr, hl⟩ := advance_of_stream_ok hp (congrArg Prod.fst hn)
    obtain ⟨r', hr', hm⟩ := advance_of_stream_ok hp' (congrArg Prod.fst hn')
    rw [hr, hr']
    exact .now (.ok () ⟨l, m, hl, hm, h⟩)
  | finish _ hn hn' _ =>
    obtain ⟨r, hr, hl⟩ := advance_of_stream_ok hp hn
    obtain ⟨r', hr', hm⟩ := advance_of_stream_ok hp' (congrArg Prod.fst hn')
    rw [hr, hr']
    exact .now (.ok () ⟨l, m, hl, hm, h⟩)
  | fault hn hn' =>
    obtain ⟨r, hr⟩ := advance_of_stream_error hp hn
    obtain ⟨r', hr'⟩ := advance_of_stream_error hp' hn'
    rw [hr, hr']
    exact .now (.error rfl)
  | cutOff hinside hn hn' hend =>
    obtain ⟨r, hr⟩ := advance_of_stream_error hp hn
    obtain ⟨r', hr', hm⟩ := advance_of_stream_ok hp' (congrArg Prod.fst hn')
    have htext := hm.current
    rw [hn'] at htext
    have hlexemes := hm.lexemes
    rw [hn'] at hlexemes
    obtain ⟨s, hs⟩ := advance_of_stream_error hlexemes hend
    rw [hr, hr']
    exact .soon hinside rfl () ⟨⟨_, (Except.ok.inj htext).symm⟩, _, _, hs⟩

/-- What parsers are at that run side by side: the same token, or the end and the closing quote. -/
inductive Facing.At (q : Char) (inside : Bool) (p p' : Parser) : Prop
  | token {t : Token} {inside' : Bool} (ht : t.Leads inside inside') (hp : p.current = t)
      (hp' : p'.current = t) (ha : AgreesSoon q inside' (advance p) (advance p'))
      (hd : AgreesSoon q inside' (discard p) (discard p')) : Facing.At q inside p p'
  | finish (hinside : inside = false) (hp : p.current = .eof) (hp' : p'.current = .strEnd)
      (hend : ∃ r, advance p' = .ok () r ∧ r.current = .eof) : Facing.At q inside p p'

/-- **Parsers that face each other are at the same token**, but for the end.  From there they move
on together too, be it to look at the next token or to read it for good. -/
theorem Facing.at (hq : IsQuote q) (h : Facing q inside p p') : Facing.At q inside p p' := by
  obtain ⟨l, m, hl, hm, hlm⟩ := h
  have hp := hl.current
  have hp' := hm.current
  have hs := hl.lexemes
  have hs' := hm.lexemes
  cases hlm.answers hq with
  | token ht hn hn' h =>
    rw [hn] at hp hs
    rw [hn'] at hp' hs'
    have hd : AgreesSoon q _ (advance p.cleared) (advance p'.cleared) :=
      advance_agreesSoon hq hs hs' h
    exact .token ht (Except.ok.inj hp).symm (Except.ok.inj hp').symm
      (advance_agreesSoon hq hs hs' h) hd
  | finish hinside hn hn' hend =>
    rw [hn] at hp
    rw [hn'] at hp' hs'
    obtain ⟨r, hr, hlr⟩ := advance_of_stream_ok hs' hend
    have hcurrent := hlr.current
    rw [hend] at hcurrent
    exact .finish hinside (Except.ok.inj hp).symm (Except.ok.inj hp').symm
      ⟨r, hr, (Except.ok.inj hcurrent).symm⟩
  | fault hn _ | cutOff _ hn _ _ =>
    rw [hn] at hp
    cases hp

/-! ## References

A reference ends with its brace, behind which the string or the template goes on.  That is the one
step after which the runs may agree only soon. -/

/-- Asking for a token fails before any other. -/
theorem expect_agreesSoon (hq : IsQuote q) (h : Facing q true p p') :
    AgreesSoon q false (expect .varEnd p) (expect .varEnd p') := by
  cases h.at hq with
  | finish hinside => cases hinside
  | token ht hp hp' ha _ =>
    cases ht with
    | closeReference =>
      rw [expect, check_bind, check_bind, hp, hp']
      exact ha
    | name | argument =>
      rw [expect_eq_error_of_ne (by simp [hp]), expect_eq_error_of_ne (by simp [hp'])]
      exact .now (.error rfl)

/-- What stands behind the name of a reference is read alike. -/
theorem nameEnd_agreesSoon (hq : IsQuote q) (h : Facing q true p p') (name : String) :
    AgreesSoon q false (nameEnd name p) (nameEnd name p') := by
  have hend (args : List String) {r r' : Parser} (h : Facing q true r r') :=
    (expect_agreesSoon hq h).bind_pure fun _ ↦ (⟨name, args⟩ : VarRef)
  cases h.at hq with
  | finish hinside => cases hinside
  | token ht hp hp' ha _ =>
    rw [nameEnd, peek_bind, peek_bind, hp, hp']
    cases ht with
    | argument arg => exact .after ha.agree fun _ _ _ h ↦ hend [arg] h
    | name | closeReference => exact hend [] h

/-- References are read alike. -/
theorem variableBody_agreesSoon (hq : IsQuote q) (h : Facing q true p p') :
    AgreesSoon q false (variableBody p) (variableBody p') := by
  cases h.at hq with
  | finish hinside => cases hinside
  | token ht hp hp' _ hd =>
    cases ht with
    | name s =>
      rw [variableBody_of_identifier hp, variableBody_of_identifier hp']
      exact .after hd.agree fun _ _ _ h ↦ nameEnd_agreesSoon hq h s
    | argument | closeReference =>
      rw [variableBody, peek_bind, peek_bind, hp, hp']
      exact .now (.error rfl)

/-! ## Parts

Each round of the loop reads a part and goes on.  The bounds of the two loops are different numbers,
and the induction is on the first of them, with the weight of the state to show that neither is used
up. -/

/-- `p` has read a template to its end where `p'` is at the quote that closes the string, which is
the last token there is. -/
structure Closing (p p' : Parser) : Prop where
  current : p.current = .eof
  current' : p'.current = .strEnd
  advance : ∃ r, Parser.advance p' = .ok () r ∧ r.current = .eof

/-- Text behind which something is malformed is not read on. -/
theorem Doomed.moreParts (h : Doomed p) {n : Nat} (hn : 0 < n) :
    ∃ e r, Parser.moreParts .strEnd .stringPart n p = .error e r ∧ e.kind = .lexical := by
  obtain ⟨n, rfl⟩ := Nat.exists_eq_succ_of_ne_zero (Nat.ne_of_gt hn)
  obtain ⟨⟨text, hp⟩, e, r, he⟩ := h
  obtain ⟨r', he'⟩ := discard_of_advance_error he
  refine ⟨e, r', ?_, kind_of_advance_eq_error he⟩
  rw [Parser.moreParts, peek_bind, hp]
  exact bind_of_error he' _

/-- What comes behind a part is read alike if the part is. -/
theorem moreParts_agree_behind {γ : Type} {n n' : Nat} {x : ParserM γ} (part : γ → StringPart)
    (ih : ∀ {r r' : Parser}, Facing q false r r' → r.weight < n → r'.weight < n' →
      Agree Closing (moreParts .eof .templatePart n r) (moreParts .strEnd .stringPart n' r'))
    (hx : AgreesSoon q false (x p) (x p')) (hw : ∀ {a r}, x p = .ok a r → r.weight < n)
    (hw' : ∀ {a r}, x p' = .ok a r → r.weight < n') :
    Agree Closing
      ((x >>= fun a ↦ moreParts .eof .templatePart n >>= fun others ↦ pure (part a :: others)) p)
      ((x >>= fun a ↦ moreParts .strEnd .stringPart n' >>= fun others ↦
        pure (part a :: others)) p') := by
  refine hx.bind (fun a _ _ hr hr' h ↦ ?_) fun a r' hr' hdoomed ↦ ?_
  · exact (ih h (hw hr) (hw' hr')).bind fun others _ _ _ _ h ↦ .ok (part a :: others) h
  · obtain ⟨e, s, hs, he⟩ := hdoomed.moreParts (Nat.zero_lt_of_lt (hw' hr'))
    exact ⟨e, s, bind_of_error hs _, he⟩

/-- A token that is read for good uses up a round of the loop. -/
theorem weight_lt_of_discard {n : Nat} (hp : p.current ≠ .eof) (hn : p.weight < n + 1)
    (h : discard p = .ok () r) : r.weight < n := by
  have := weight_lt_of_advance hp (discard_eq_ok_iff.1 h)
  omega

theorem weight_lt_of_variableBody {n : Nat} {ref : VarRef} (hn : p.weight < n)
    (h : variableBody p = .ok ref r) : r.weight < n := by
  obtain ⟨ts, hm, -⟩ := variableBody_ok h
  have := hm.weight_add_length_le
  omega

/-- **The parts of a template and of a string are read alike.**  The induction is on the rounds of
the loop, of which both have more than there are tokens left. -/
theorem moreParts_agree (hq : IsQuote q) {n : Nat} : ∀ {n' : Nat} {p p' : Parser},
    Facing q false p p' → p.weight < n → p'.weight < n' →
      Agree Closing (moreParts .eof .templatePart n p) (moreParts .strEnd .stringPart n' p') := by
  induction n with
  | zero => exact fun _ hn ↦ absurd hn (Nat.not_lt_zero _)
  | succ n ih =>
    intro n' p p' h hn hn'
    obtain ⟨n', rfl⟩ := Nat.exists_eq_succ_of_ne_zero (Nat.ne_of_gt (Nat.zero_lt_of_lt hn'))
    rw [moreParts, moreParts, peek_bind, peek_bind]
    cases h.at hq with
    | finish _ hp hp' hend =>
      rw [hp, hp']
      exact .ok [] ⟨hp, hp', hend⟩
    | token ht hp hp' _ hd =>
      rw [hp, hp']
      cases ht with
      | text s =>
        exact moreParts_agree_behind (fun _ ↦ .text s) ih hd
          (weight_lt_of_discard (by simp [hp]) hn) (weight_lt_of_discard (by simp [hp']) hn')
      | backref k =>
        exact moreParts_agree_behind (fun _ ↦ .backref k) ih hd
          (weight_lt_of_discard (by simp [hp]) hn) (weight_lt_of_discard (by simp [hp']) hn')
      | openReference =>
        refine hd.agree.bind fun _ _ _ hr hr' h ↦ ?_
        exact moreParts_agree_behind .variable ih (variableBody_agreesSoon hq h)
          (weight_lt_of_variableBody (weight_lt_of_discard (by simp [hp]) hn hr))
          (weight_lt_of_variableBody (weight_lt_of_discard (by simp [hp']) hn' hr'))

/-- A template and a string behind its quote are read alike; the string is the last there is. -/
theorem template_agree (hq : IsQuote q) (h : Facing q false p p') :
    Agree (fun _ r' ↦ r'.current = .eof) (template p) (stringBody p') := by
  rw [template, stringBody, get_bind, get_bind]
  refine (moreParts_agree hq h p.weight_lt_fuel p'.weight_lt_fuel).bind fun parts _ r' _ _ h ↦ ?_
  obtain ⟨s, hs, hcurrent⟩ := h.advance
  rw [bind_of_ok (discard_of_advance hs)]
  exact .ok (Expr.string parts) hcurrent

/-! ## Strings that are all there is

A string is an operand, and nothing behind it can go on with it since nothing comes behind it. -/

/-- A string that is followed by the end of the source is a condition. -/
theorem whole_of_string_ok {e : Expr} (hd : p.depth = 0) (hp : p.current = .strBegin)
    (h : (discard >>= fun _ ↦ stringBody) p = .ok e r) (hr : r.current = .eof) :
    whole p = .ok e r := by
  obtain ⟨⟨⟩, p₁, h₁, h⟩ := bind_eq_ok_iff.1 h
  obtain ⟨ts, ps, hm, hps, rfl⟩ := stringBody_ok h
  have hoperand : Phrase.Operand p.options maxNestingDepth (.strBegin :: ts ++ [.strEnd])
      (.string ps) := .string hps
  exact (whole_eq_ok_iff hd rfl).2 ⟨_, .cons hp (by decide) (discard_eq_ok_iff.1 h₁) hm, hr,
    .one (.one (.comparison (.concat (.one hoperand))))⟩

/-- An error in a string that comes first is the error of the whole. -/
theorem whole_of_string_error {e : ParseError} (hd : p.depth = 0) (hp : p.current = .strBegin)
    (h : (discard >>= fun _ ↦ stringBody) p = .error e r) : whole p = .error e r := by
  have hoperand (n : Nat) : operand (below n) p = .error e r := by
    rw [operand, peek_bind, hp]
    exact h
  have hconcat (n : Nat) : concatenation (below n) p = .error e r := by
    rw [concatenation_eq]
    exact map_eq_error_iff.2 (bind_of_error (map_eq_error_iff.2 (hoperand n)) _)
  have hcomparison (n : Nat) : comparison (below n) p = .error e r := by
    rw [comparison_eq]
    refine bind_of_error ?_ _
    rw [bareComparison, peek_bind, hp]
    exact bind_of_error (hconcat n) _
  have hnegation (n : Nat) : negation (below n) p = .error e r := by
    rw [negation, check_bind, hp]
    exact hcomparison n
  rw [whole_eq hd, level_eq]
  exact bind_of_error (bind_of_error (bind_of_error (hnegation _) _) _) _

end Parser

/-! ## Templates and strings

Both readings start in front of the same text. -/

/-- A text between two quotes. -/
def enquote (q : Char) (s : String) : String := String.ofList (q :: (s.toList ++ [q]))

namespace Lexer

variable {q : Char}

/-- A quote opens a string. -/
theorem next_enquote (hq : IsQuote q) (s : String) : ∃ opened m,
    (condition (enquote q s)).next = (.ok .strBegin, m) ∧ m.cursor.rest = s.toList ++ [q] ∧
      m.modes = [.string q opened, .normal] ∧ m.template = false := by
  have hr : (condition (enquote q s)).cursor.rest = q :: (s.toList ++ [q]) := String.toList_ofList
  have hstart : (condition (enquote q s)).start.rest = q :: (s.toList ++ [q]) :=
    start_of_blanks (b := []) nofun hr (fun _ ↦ isBlank_of_isQuote hq) fun _ _ _ ↦ rfl
  have hscan : (condition (enquote q s)).scan =
      ⟨.ok .strBegin, 1, .enter (.string q (condition (enquote q s)).start.offset)⟩ := by
    change Scan.normal _ _ (condition (enquote q s)).start.rest = _
    rw [hstart, Scan.normal]
    exact if_pos hq
  obtain ⟨m, hn, hrest, hmodes, hm⟩ := next_of_token (l := condition (enquote q s)) rfl
    (congrArg Scan.outcome hscan)
  rw [hstart, hscan] at hrest
  rw [hscan] at hmodes
  exact ⟨_, m, hn, hrest, hmodes, hm⟩

/-- Behind its opening quote a string faces the template with the same text. -/
theorem quoted_enquote (hq : IsQuote q) {s : String} (hquote : q ∉ s.toList)
    (hnul : '\x00' ∉ s.toList) : (condition (enquote q s)).next.1 = .ok .strBegin ∧
      Quoted q false (ofTemplate s) (condition (enquote q s)).next.2 := by
  obtain ⟨opened, m, hn, hrest, hmodes, hm⟩ := next_enquote hq s
  rw [hn]
  refine ⟨rfl, hrest, hquote, hnul, ?_, rfl, hm⟩
  rw [hmodes]
  exact .text _ _

end Lexer

namespace Parser

theorem Doomed.stringBody {p : Parser} (h : Doomed p) :
    ∃ e r, Parser.stringBody p = .error e r ∧ e.kind = .lexical := by
  obtain ⟨e, r, hr, he⟩ := h.moreParts (Nat.zero_lt_of_lt p.weight_lt_fuel)
  refine ⟨e, r, ?_, he⟩
  rw [Parser.stringBody, get_bind]
  exact bind_of_error hr _

/-- A parser in front of the first token of a template. -/
def beforeTemplate (s : String) : Parser := ⟨(Lexer.ofTemplate s).stream, .eof, 0, 0, {}⟩

end Parser

namespace Expression

/-- A template is read behind the step to its first token. -/
theorem parseTemplate_eq (s : String) : parseTemplate s =
    match (Parser.advance >>= fun _ ↦ Parser.template) (Parser.beforeTemplate s) with
    | .ok root _ => .ok ⟨s, .template, root⟩
    | .error e _ => .error e := by
  rw [parseTemplate, Parser.ofLexer]
  rcases hn : (Lexer.ofTemplate s).stream.next with ⟨⟨e | t, start⟩, rest⟩
  · have ha : Parser.advance (Parser.beforeTemplate s) =
        .error (.ofLexError e) ⟨rest, .eof, 0, 0, {}⟩ := by
      rw [Parser.advance, Parser.beforeTemplate, hn]
    rw [Parser.bind_of_error ha]
  · have ha : Parser.advance (Parser.beforeTemplate s) = .ok () ⟨rest, t, start, 0, {}⟩ :=
      Parser.advance_eq_ok_iff.2 ⟨t, start, rest, hn, rfl⟩
    exact Parser.bind_of_ok (f := fun _ ↦ Parser.template) ha ▸ rfl

/-- **A template is a string without its quotes.**  Behind the opening quote the two parsers face
each other, and the condition has nothing but the string in it. -/
theorem parseTemplate_agree_enquote {q : Char} (hq : IsQuote q) {s : String}
    (hquote : q ∉ s.toList) (hnul : '\x00' ∉ s.toList) (options : ParseOptions) :
    Agree (parseTemplate s) (parse (enquote q s) options) := by
  obtain ⟨hbegin, hquoted⟩ := Lexer.quoted_enquote hq hquote hnul
  obtain ⟨p, hp, hl, hd, -⟩ := Parser.ofLexer_of_ok (o := options) hbegin
  have hcurrent : p.current = .strBegin := by
    have := hl.current
    rw [hbegin] at this
    exact (Except.ok.inj this).symm
  have hfirst : Parser.AgreesSoon q false (Parser.advance (Parser.beforeTemplate s))
      (Parser.advance p.cleared) := Parser.advance_agreesSoon hq rfl hl.lexemes hquoted
  have hall : Parser.Agree (fun _ r' ↦ r'.current = .eof)
      ((Parser.advance >>= fun _ ↦ Parser.template) (Parser.beforeTemplate s))
      ((Parser.discard >>= fun _ ↦ Parser.stringBody) p) :=
    Parser.AgreesSoon.bind hfirst (fun _ _ _ _ _ h ↦ Parser.template_agree hq h)
      fun _ _ _ h ↦ h.stringBody
  rw [parseTemplate_eq, parse, hp]
  simp only
  generalize (Parser.advance >>= fun _ ↦ Parser.template) (Parser.beforeTemplate s) = r at hall ⊢
  generalize hr' : (Parser.discard >>= fun _ ↦ Parser.stringBody) p = r' at hall
  cases hall with
  | ok e hend =>
    rw [Parser.whole_of_string_ok hd hcurrent hr' hend]
    exact .ok rfl
  | error h =>
    rw [Parser.whole_of_string_error hd hcurrent hr']
    exact .error h

end Expression

/-! ## NULs in templates

The characters of each token are known from the lexer (`Lexer.next_text` and its companions), so a
NUL in the source is found by going along the tokens. -/

/-- Where a character that is not in `u` stands behind `u`. -/
theorem exists_of_append_eq {u cs before after : List Char} {c : Char} (hu : c ∉ u)
    (h : u ++ cs = before ++ c :: after) :
    ∃ before', before = u ++ before' ∧ cs = before' ++ c :: after := by
  obtain ⟨before', hbefore, hcs⟩ | ⟨u', rfl, hc⟩ := List.append_eq_append_iff.1 h
  · exact ⟨before', hbefore, hcs⟩
  · cases u' with
    | nil => exact ⟨[], by simp, hc.symm⟩
    | cons d u' =>
      obtain ⟨rfl, -⟩ := List.cons.inj hc
      simp at hu

namespace Lexer

variable {l l' : Lexer} {before after : List Char} {ts : List Token} {ps : List StringPart}

/-- The NUL between `before` and `after` stands in the argument of a reference: the lexer gets to a
place `j` where it reads an opening, a name, an argument with this NUL in it and the brace that
closes the reference, and gets to `j'`. -/
inductive InArgument (l : Lexer) : List Char → List Char → Prop
  | intro {us : List Token} {j j' : Lexer} {name arg : String} {x b b' y z : List Char}
      (hj : l.Reads us j)
      (hj' : j.Reads [.varBegin, .identifier name, .varArg arg, .varEnd] j')
      (hr : j.cursor.rest = '%' :: '\x7b' :: (b ++ (name.toList ++ (b' ++ ':' ::
        (arg.toList ++ '\x7d' :: j'.cursor.rest)))))
      (hb : ∀ c ∈ b, isBlank c = true) (hb' : ∀ c ∈ b', isBlank c = true)
      (hname : ∀ c ∈ name.toList, isWordChar c = true) (hbrace : '\x7d' ∉ arg.toList)
      (harg : arg.toList = y ++ '\x00' :: z) :
      InArgument l (x ++ '%' :: '\x7b' :: (b ++ (name.toList ++ (b' ++ ':' :: y))))
        (z ++ '\x7d' :: j'.cursor.rest)

/-- What is read first has no part in it. -/
theorem InArgument.behind (h : l'.InArgument before after) (hr : l.Reads ts l')
    (u : List Char) : l.InArgument (u ++ before) after := by
  cases h with
  | @intro us j j' name arg x b b' y z hj hj' hrest hb hb' hname hbrace harg =>
    rw [← List.append_assoc]
    exact .intro (hr.trans hj) hj' hrest hb hb' hname hbrace harg

/-- Text and backreferences hold no NUL, so it stands behind them. -/
theorem inArgument_behind_text {t : Token} (ht : t.Leads false false) {opened : Nat}
    (hm : l.modes = [.string '\x00' opened]) (hn : l.next = (.ok t, l'))
    (hrest : l.cursor.rest = before ++ '\x00' :: after)
    (ih : ∀ {before'}, l'.modes = [.string '\x00' opened] →
      l'.cursor.rest = before' ++ '\x00' :: after → l'.InArgument before' after) :
    l.InArgument before after := by
  have hteof : t ≠ .eof := by rintro rfl; cases ht
  have hmode : l.mode = .string '\x00' opened := mode_of_modes hm
  obtain ⟨u, hu, hr, hmodes⟩ := next_text hmode hn ht
  obtain ⟨before', rfl, hrest'⟩ := exists_of_append_eq hu (hr.symm.trans hrest)
  exact (ih (hmodes.trans hm) hrest').behind (.more hn hteof (.done l')) u

/-- A NUL is no blank. -/
theorem nul_not_mem_of_isBlank {b : List Char} (h : ∀ c ∈ b, isBlank c = true) : '\x00' ∉ b :=
  fun hmem ↦ absurd (h _ hmem) (by decide)

/-- A NUL is no part of a word. -/
theorem nul_not_mem_of_isWordChar {w : List Char} (h : ∀ c ∈ w, isWordChar c = true) :
    '\x00' ∉ w :=
  fun hmem ↦ absurd (h _ hmem) (by decide)

/-- The opening of a reference in a template, and its name. -/
theorem next_opening_name {l₁ : Lexer} {name : String} {opened : Nat}
    (hm : l.modes = [.string '\x00' opened]) (hn : l.next = (.ok .varBegin, l₁))
    (hn' : l₁.next = (.ok (.identifier name), l')) :
    ∃ b start, (∀ c ∈ b, isBlank c = true) ∧ (∀ c ∈ name.toList, isWordChar c = true) ∧
      l.cursor.rest = '%' :: '\x7b' :: (b ++ (name.toList ++ l'.cursor.rest)) ∧
      l'.modes = [.reference start, .string '\x00' opened] := by
  have hmode : l.mode = .string '\x00' opened := mode_of_modes hm
  obtain ⟨hr, start, hm₁⟩ := next_opening hmode hn
  have hmode₁ : l₁.mode = .reference start := mode_of_modes hm₁
  obtain ⟨b, hb, hname, hr₁, hm'⟩ := next_name hmode₁ hn'
  rw [hm₁, hm] at hm'
  rw [hr₁] at hr
  exact ⟨b, start, hb, hname, hr, hm'⟩

/-- A NUL of a reference without an argument stands behind it. -/
theorem inArgument_behind_plain {l₁ l₂ l₃ : Lexer} {name : String} {opened : Nat}
    (hm : l.modes = [.string '\x00' opened]) (hn : l.next = (.ok .varBegin, l₁))
    (hn₁ : l₁.next = (.ok (.identifier name), l₂)) (hn₂ : l₂.next = (.ok .varEnd, l₃))
    (hrest : l.cursor.rest = before ++ '\x00' :: after)
    (ih : ∀ {before'}, l₃.modes = [.string '\x00' opened] →
      l₃.cursor.rest = before' ++ '\x00' :: after → l₃.InArgument before' after) :
    l.InArgument before after := by
  obtain ⟨b, start, hb, hname, hr, hm₂⟩ := next_opening_name hm hn hn₁
  have hmode₂ : l₂.mode = .reference start := mode_of_modes hm₂
  obtain ⟨b', hb', hr', hm₃⟩ := next_closing hmode₂ hn₂
  rw [hm₂] at hm₃
  have hu : '\x00' ∉ '%' :: '\x7b' :: (b ++ (name.toList ++ (b' ++ ['\x7d']))) := by
    simp [nul_not_mem_of_isBlank hb, nul_not_mem_of_isBlank hb', nul_not_mem_of_isWordChar hname]
  have hr₃ : '%' :: '\x7b' :: (b ++ (name.toList ++ (b' ++ ['\x7d']))) ++ l₃.cursor.rest =
      before ++ '\x00' :: after := by
    rw [← hrest, hr, hr']
    simp
  obtain ⟨before', rfl, hrest'⟩ := exists_of_append_eq hu hr₃
  exact (ih hm₃ hrest').behind
    (.more hn (by decide) (.more hn₁ (by simp) (.more hn₂ (by decide) (.done _)))) _

/-- A NUL of a reference with an argument stands in the argument or behind the reference. -/
theorem inArgument_of_argument {l₁ l₂ l₃ l₄ : Lexer} {name arg : String} {opened : Nat}
    (hm : l.modes = [.string '\x00' opened]) (hn : l.next = (.ok .varBegin, l₁))
    (hn₁ : l₁.next = (.ok (.identifier name), l₂)) (hn₂ : l₂.next = (.ok (.varArg arg), l₃))
    (hn₃ : l₃.next = (.ok .varEnd, l₄)) (hrest : l.cursor.rest = before ++ '\x00' :: after)
    (ih : ∀ {before'}, l₄.modes = [.string '\x00' opened] →
      l₄.cursor.rest = before' ++ '\x00' :: after → l₄.InArgument before' after) :
    l.InArgument before after := by
  obtain ⟨b, start, hb, hname, hr, hm₂⟩ := next_opening_name hm hn hn₁
  have hmode₂ : l₂.mode = .reference start := mode_of_modes hm₂
  obtain ⟨b', y, hb', hbrace, hy, hr₂, hm₃⟩ := next_argument hmode₂ hn₂
  have hmode₃ : l₃.mode = .reference start := mode_of_modes (hm₃.trans hm₂)
  obtain ⟨b'', hb'', hr₃, hm₄⟩ := next_closing hmode₃ hn₃
  rw [hm₃, hm₂] at hm₄
  -- the argument goes up to the brace, so no blanks stand between them
  have hr₃' : l₃.cursor.rest = '\x7d' :: l₄.cursor.rest := by
    cases b'' with
    | nil => exact hr₃
    | cons c b'' =>
      obtain ⟨rfl, -⟩ := List.cons.inj (hy.symm.trans hr₃)
      exact absurd (hb'' _ List.mem_cons_self) (by decide)
  have hreads : l.Reads [.varBegin, .identifier name, .varArg arg, .varEnd] l₄ :=
    .more hn (by decide) (.more hn₁ (by simp) (.more hn₂ (by simp) (.more hn₃ (by decide)
      (.done _))))
  rw [hr₂, hr₃'] at hr
  have hu : '\x00' ∉ '%' :: '\x7b' :: (b ++ (name.toList ++ (b' ++ [':']))) := by
    simp [nul_not_mem_of_isBlank hb, nul_not_mem_of_isBlank hb', nul_not_mem_of_isWordChar hname]
  have hsplit : '%' :: '\x7b' :: (b ++ (name.toList ++ (b' ++ [':']))) ++
      (arg.toList ++ '\x7d' :: l₄.cursor.rest) = before ++ '\x00' :: after := by
    rw [← hrest, hr]
    simp
  obtain ⟨before₁, rfl, hrest₁⟩ := exists_of_append_eq hu hsplit
  obtain ⟨before₂, rfl, hafter⟩ | ⟨z, harg, hafter⟩ := List.append_eq_append_iff.1 hrest₁
  · -- the NUL stands behind the argument, and the brace is not it
    cases before₂ with
    | nil => cases hafter
    | cons c before₂ =>
      have hbehind := (ih hm₄ (List.cons.inj hafter).2).behind hreads
        ('%' :: '\x7b' :: (b ++ (name.toList ++ (b' ++ [':']))) ++ (arg.toList ++ [c]))
      simpa using hbehind
  · cases z with
    | nil => cases hafter
    | cons c z =>
      obtain ⟨rfl, rfl⟩ := List.cons.inj hafter
      have hinside := InArgument.intro (x := []) (.done l) hreads hr hb hb' hname hbrace harg
      simpa using hinside

/-- **The NULs of a template that is read to its end are in the arguments of its references.**  A
NUL in the text of the template would end it there, and a name has none.  The induction is on the
parts, with what is left of the template behind each. -/
theorem inArgument_of_parts (hps : Phrase.Parts ts ps) {opened : Nat}
    (hm : l.modes = [.string '\x00' opened]) (hreads : l.Reads ts l')
    (hend : l'.next.1 = .ok .eof) (hrest : l.cursor.rest = before ++ '\x00' :: after) :
    l.InArgument before after := by
  induction hps generalizing l before with
  | nil =>
    cases hreads
    obtain hend | ⟨hmode, -⟩ := next_eq_eof_iff.1 hend
    · rw [atTemplateEnd, hrest] at hend
      simp at hend
    · cases (mode_of_modes hm).symm.trans hmode
  | text s _ ih =>
    cases hreads with
    | more hn _ hreads =>
      exact inArgument_behind_text (.text s) hm hn hrest fun hm' ↦ ih hm' hreads
  | backref k _ ih =>
    cases hreads with
    | more hn _ hreads =>
      exact inArgument_behind_text (.backref k) hm hn hrest fun hm' ↦ ih hm' hreads
  | reference href _ ih =>
    cases href with
    | plain name =>
      obtain _ | ⟨hn, -, _ | ⟨hn₁, -, _ | ⟨hn₂, -, hreads⟩⟩⟩ := hreads
      exact inArgument_behind_plain hm hn hn₁ hn₂ hrest fun hm' ↦ ih hm' hreads
    | argument name arg =>
      obtain _ | ⟨hn, -, _ | ⟨hn₁, -, _ | ⟨hn₂, -, _ | ⟨hn₃, -, hreads⟩⟩⟩⟩ := hreads
      exact inArgument_of_argument hm hn hn₁ hn₂ hn₃ hrest fun hm' ↦ ih hm' hreads

end Lexer

namespace Expression

/-- What is read is a string without its quotes. -/
theorem parts_of_parseTemplate {s : String} {x : Expression} (h : parseTemplate s = .ok x) :
    ∃ ts ps, (Lexer.ofTemplate s).Tokenizes ts ∧ Phrase.Parts ts ps ∧
      x = ⟨s, .template, .string ps⟩ := by
  rw [parseTemplate] at h
  cases hp : Parser.ofLexer (.ofTemplate s) {} with
  | error e =>
    rw [hp] at h
    cases h
  | ok p =>
    rw [hp] at h
    cases hr : Parser.moreParts .eof .templatePart p.fuel p with
    | error e r =>
      have htemplate : Parser.template p = .error e r := by
        rw [Parser.template, Parser.get_bind]
        exact Parser.bind_of_error hr _
      simp only [htemplate] at h
      cases h
    | ok ps r =>
      have htemplate : Parser.template p = .ok (.string ps) r := by
        rw [Parser.template, Parser.get_bind]
        exact Parser.bind_of_ok hr _
      simp only [htemplate] at h
      obtain rfl := Except.ok.inj h
      obtain ⟨hl, -, -⟩ := Parser.looksAt_of_ofLexer hp
      obtain ⟨ts, hm, hps, hend⟩ := Parser.moreParts_ok p.weight_lt_fuel hr
      obtain ⟨l, hreads, hlr⟩ := hl.reads hm
      exact ⟨ts, ps, ⟨l, hreads, hend ▸ hlr.current⟩, hps, rfl⟩

/-- Where a NUL stands in a template that is read. -/
theorem inArgument_of_parseTemplate {s : String} {x : Expression} (h : parseTemplate s = .ok x)
    {before after : List Char} (hs : s.toList = before ++ '\x00' :: after) :
    (Lexer.ofTemplate s).InArgument before after := by
  obtain ⟨ts, ps, ⟨l, hreads, hend⟩, hps, -⟩ := parts_of_parseTemplate h
  exact Lexer.inArgument_of_parts hps rfl hreads hend hs

/-- **A template is a string without its quotes.**  A text without the quote and without a NUL is
read in the same way as the one and as the other, and in any template that is read the NULs are in
the arguments of references. -/
theorem parseTemplate_correct :
    (∀ q s options, IsQuote q → q ∉ s.toList → '\x00' ∉ s.toList →
      Agree (parseTemplate s) (parse (enquote q s) options)) ∧
    ∀ s x before after, parseTemplate s = .ok x → s.toList = before ++ '\x00' :: after →
      (Lexer.ofTemplate s).InArgument before after :=
  ⟨fun _ _ options hq hquote hnul ↦ parseTemplate_agree_enquote hq hquote hnul options,
    fun _ _ _ _ h hs ↦ inArgument_of_parseTemplate h hs⟩

/-- A backslash at the end, which is an error in both, and a NUL in an argument. -/
theorem parseTemplate_correct_examples :
    Agree (parseTemplate "a\\") (parse (enquote '"' "a\\")) ∧
      (Lexer.ofTemplate "%\x7ba:\x00\x7d").InArgument ['%', '\x7b', 'a', ':'] ['\x7d'] := by
  obtain ⟨x, h⟩ : ∃ x, parseTemplate "%\x7ba:\x00\x7d" = .ok x := by
    have hok : (parseTemplate "%\x7ba:\x00\x7d").isOk = true := by decide +kernel
    cases h : parseTemplate "%\x7ba:\x00\x7d" with
    | ok x => exact ⟨x, rfl⟩
    | error e =>
      rw [h] at hok
      cases hok
  exact ⟨parseTemplate_correct.1 '"' "a\\" _ (.inl rfl) (by decide) (by decide),
    parseTemplate_correct.2 _ _ _ _ h (by decide)⟩

end Expression

end RequestCondition

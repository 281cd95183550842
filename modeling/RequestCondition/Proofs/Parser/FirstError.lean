import RequestCondition.Proofs.Parser.Acceptance
import RequestCondition.Proofs.Parser.Failure

/-!
# The first misplaced token

Every function of the grammar fails at the first token that cannot be part of any phrase, with what
stands before it begun and not yet spoilt.  `Parser.level_fails` has this for the whole grammar, and
`Parser.whole_fails` for the reading of a source.

There is one lemma for each function, and each follows the steps of the function: it fails in its
first step, or behind it.  What the first step has read is a phrase by soundness, and it is read
again on other tokens by completeness, so both are used here for the level at hand (`reads_below`,
`accepts_below`).

* **Constructs that nest.**  A failure inside leaves the construct open.  The count of open
  constructs has no part in the failure (`FailsAt.withDepth`), and to close the construct is one
  more token for what finishes the inside.
* **Operators.**  Where no operator stands behind an operand nothing fails: the function returns,
  and it is left to whoever has called it to complain.  So the token that nothing goes on with is
  found at the outside, by the function that asks for a closing token or for the end.
* **Comparisons.**  A second comparison is an error of its own.  What stands before it is a
  comparison already, so nothing is needed to finish it.
-/

set_option autoImplicit false

namespace RequestCondition

namespace Parser

open Phrase (Finishable Filler)

variable {α : Type} {o : ParseOptions} {n : Nat}

/-- What a grammar for `n` owes to the one around it where it fails. -/
structure GrammarFails (o : ParseOptions) (g : Grammar) (n : Nat) : Prop where
  expression : Fails o g.expression (Phrase.Disjunction o n)
  negation : Fails o g.negation (Phrase.Negation o n)
  concat : Fails o g.concat (Phrase.Concat o n)

/-! ## Constructs that nest

The limit is an error of another kind, so where an error is about a misplaced token the construct
has been opened, and there is a level below. -/

/-- A construct in which a token is misplaced has been opened. -/
theorem nested_below_error {inside : Grammar → ParserM α} {p r : Parser} {e : ParseError}
    (h : nested (below n) inside p = .error e r) (he : e.Misplaced) :
    ∃ m, n = m + 1 ∧ inside (level m) (p.withDepth (p.depth + 1)) = .error e r := by
  cases n with
  | zero =>
    obtain ⟨rfl, -⟩ := EStateM.Result.error.inj h
    exact absurd rfl he.2
  | succ m => exact ⟨m, rfl, nested_some_eq_error_iff.1 h⟩

/-- A failure inside a construct that has been opened on the way. -/
theorem FailsAt.opened {fails fails₁ : List Token → Parser → Prop} {P Q : List Token → Prop}
    {p p₁ : Parser} {e : ParseError} {ts : List Token}
    (hm : Moves (p.withDepth (p.depth + 1)) ts p₁) (h : FailsAt o fails₁ P p₁ e)
    (hPQ : ∀ us, P us → Finishable Q (ts ++ us))
    (hf : ∀ {p' q' : Parser} {us : List Token}, p'.options = o → Moves p' ts q' →
      q'.current = p₁.current → (∀ m, fails₁ us (q'.withDepth m)) → fails (ts ++ us) p') :
    FailsAt o fails Q p e := by
  have hp₁ : p₁ = (p₁.withDepth (p₁.depth - 1)).withDepth p₁.depth := by
    rw [withDepth_withDepth, withDepth_self]
  rw [hp₁] at h
  exact .step hm.closed h.withDepth hPQ fun ho hm' hcur _ ↦ hf ho hm' hcur

/-- What opens a construct with a token fails behind it as what follows the token does. -/
theorem FailsAt.nested {step : ParserM Unit} {k : Grammar → ParserM α} {P : Nat → List Token → Prop}
    {Q : List Token → Prop} {t : Token} {p r : Parser} {e : ParseError} (hstep : Skips step)
    (hp : p.current = t) (ht : t ≠ .eof) (ho : p.options = o)
    (h : Parser.nested (below n) (fun g ↦ step >>= fun _ ↦ k g) p = .error e r) (he : e.Misplaced)
    (hk : ∀ m, n = m + 1 → ∀ {p₁ r₁ : Parser}, p₁.options = o → k (level m) p₁ = .error e r₁ →
      FailsAt o (Errs (k (level m))) (P m) p₁ e)
    (hPQ : ∀ m, n = m + 1 → ∀ us, P m us → Finishable Q (t :: us)) :
    FailsAt o (Errs (Parser.nested (below n) fun g ↦ step >>= fun _ ↦ k g)) Q p e := by
  obtain ⟨m, rfl, hin⟩ := nested_below_error h he
  obtain h | ⟨⟨⟩, p₁, h₁, h⟩ := bind_eq_error_iff.1 hin
  · exact absurd he (hstep.error h)
  have hm₁ : Moves (p.withDepth (p.depth + 1)) [t] p₁ := .one hp ht (hstep.ok.1 h₁)
  refine .opened hm₁ (hk m rfl (hm₁.options_eq.trans ho) h) (hPQ m rfl)
    fun {p' q'} _ _ hm' _ herr ↦ ?_
  obtain ⟨hp', -, q₁, ha', hm'⟩ := hm'.uncons
  obtain rfl := hm'.eq_of_nil
  obtain ⟨e', r', herr⟩ := herr (p'.depth + 1)
  refine ⟨e', r', nested_some_eq_error_iff.2 ?_⟩
  exact (bind_of_ok (hstep.ok.2 (advance_withDepth _ ha')) _).trans herr

/-- What stands in parentheses, with the parenthesis that closes it. -/
theorem group_fails {m : Nat} (hexp : Fails o (level m).expression (Phrase.Disjunction o m))
    {p r : Parser} {e : ParseError} (ho : p.options = o)
    (h : ((level m).expression >>= fun a ↦ expect .rparen >>= fun _ ↦ pure a) p = .error e r)
    (he : e.Misplaced) :
    FailsAt o (Errs ((level m).expression >>= fun a ↦ expect .rparen >>= fun _ ↦ pure a))
      (fun us ↦ ∃ vs a, us = vs ++ [.rparen] ∧ Phrase.Disjunction o m vs a) p e := by
  obtain h | ⟨a, p₁, h₁, h⟩ := bind_eq_error_iff.1 h
  · refine .first (hexp ho h he) ?_
    rintro us ⟨a, ha⟩
    exact .of_one .rparen ⟨us, a, rfl, ha⟩
  · obtain ⟨ts, hm, ha, -, hrep⟩ :=
      (level_reads m).expression.replay (level_accepts m).expression ho h₁
    obtain h | ⟨⟨⟩, p₂, h₂, h⟩ := bind_eq_error_iff.1 h
    · have hend : FailsAt o (Errs (expect .rparen)) (· = [.rparen]) p₁ e :=
        expect_fails h he (.of_one .rparen rfl)
      refine .second hm hrep (.first hend (Q := (· = [.rparen])) fun _ h ↦ .of_nil h) ?_
      rintro _ rfl
      exact .of_nil ⟨ts, a, rfl, ha⟩
    · cases h

/-- What stands behind a word: the arguments of a call or nothing. -/
def wordEnd (below : Option Grammar) (name : String) : ParserM Expr := do
  if ← check (· == .lparen) then
    nested below fun g ↦ do
      advance
      let args ← items .rparen g.concat
      pure (.call name args)
  else pure (.text name)

theorem wordEnd_fails (hb : ∀ m, n = m + 1 → GrammarFails o (level m) m) (name : String)
    {p r : Parser} {e : ParseError} (ho : p.options = o)
    (h : wordEnd (below n) name p = .error e r) (he : e.Misplaced) :
    FailsAt o (Errs (wordEnd (below n) name))
      (fun us ↦ ∃ a, Phrase.Operand o n (.identifier name :: us) a) p e := by
  rw [wordEnd, check_bind] at h
  by_cases hp : p.current = .lparen
  · rw [if_pos (by simpa using hp)] at h
    have hargs (m : Nat) (hm : n = m + 1) {p₁ r₁ : Parser} (ho₁ : p₁.options = o)
        (h₁ : (items .rparen (level m).concat >>= fun es ↦ pure (Expr.call name es)) p₁ =
          .error e r₁) :=
      items_fails .rparen (hb m hm).concat (level_reads m).concat (level_accepts m).concat ho₁
        (bind_pure_eq_error_iff.1 h₁) he
    have hnested := FailsAt.nested
      (Q := fun us ↦ ∃ a, Phrase.Operand o n (.identifier name :: us) a)
      skips_advance hp (by decide) ho h he
      (fun m hm _ _ ho₁ h₁ ↦ .first (hargs m hm ho₁ h₁) fun _ h ↦ .of_nil h) ?_
    · refine hnested.congr (fun _ h ↦ .of_nil h) fun hp' ↦ ?_
      rw [wordEnd, check_bind, if_pos (by simpa using hp'.trans hp)]
    · rintro m rfl _ ⟨vs, es, rfl, hes⟩
      exact .of_nil ⟨_, .call name hes⟩
  · rw [if_neg (by simpa using hp)] at h
    cases h

theorem operand_fails (hb : ∀ m, n = m + 1 → GrammarFails o (level m) m) :
    Fails o (operand (below n)) (Phrase.Operand o n) := by
  intro p r e ho h he
  obtain ⟨m, hm, h⟩ := of_peek_bind h
  have hword : Finishable (fun ts ↦ ∃ a, Phrase.Operand o n ts a) [] :=
    .of_one .word ⟨_, .word "a"⟩
  split at hm <;> subst hm
  case h_1 | h_2 | h_5 =>
    obtain h | ⟨⟨⟩, p₁, h₁, h⟩ := bind_eq_error_iff.1 h
    · exact absurd he (not_misplaced_of_discard h)
    · cases h
  case h_3 hp =>
    refine .behind skips_discard hp (by decide) ho h he
      (fun ho₁ h ↦ stringBody_fails ho₁ h he) ?_ fun hp' ↦ ?_
    · rintro _ ⟨vs, ps, rfl, hps⟩
      exact .of_nil ⟨_, .string hps⟩
    · rw [operand, peek_bind, hp']
  case h_4 hp =>
    refine .behind skips_discard hp (by decide) ho h he
      (fun ho₁ h ↦ variableBody_fails.bind_pure ho₁ h he) ?_ fun hp' ↦ ?_
    · rintro us ⟨ref, href⟩
      exact .of_nil ⟨_, .reference href⟩
    · rw [operand, peek_bind, hp']
  case h_6 name hp =>
    refine .behind skips_discard hp (by simp) ho h he (fun ho₁ h ↦ wordEnd_fails hb name ho₁ h he)
      (fun _ h ↦ .of_nil h) fun hp' ↦ ?_
    rw [operand, peek_bind, hp']
  case h_7 hp =>
    rw [clear_bind] at h
    obtain ⟨m, rfl, -⟩ := nested_below_error h he
    have hclear {p' : Parser} : nested (below (m + 1)) (fun g ↦ advance >>= fun _ ↦
        g.expression >>= fun a ↦ expect .rparen >>= fun _ ↦ pure a) p'.cleared =
      nested (below (m + 1)) (fun g ↦ discard >>= fun _ ↦
        g.expression >>= fun a ↦ expect .rparen >>= fun _ ↦ pure a) p' := rfl
    rw [hclear] at h
    refine (FailsAt.nested skips_discard hp (by decide) ho h he
      (fun k hk _ _ ho₁ h₁ ↦ group_fails (hb k hk).expression ho₁ h₁ he) ?_).congr
        (fun _ h ↦ .of_nil h) fun hp' ↦ ?_
    · rintro k hk _ ⟨vs, a, rfl, ha⟩
      obtain rfl := Nat.succ.inj hk
      exact .of_nil ⟨a, .group ha⟩
    · rw [operand, peek_bind, hp', hp]
      exact (clear_bind _ _).trans hclear
  case h_8 | h_9 =>
    rename_i hp
    obtain ⟨rfl, -⟩ := EStateM.Result.error.inj h
    refine .here rfl hword fun _ hp' ↦ ?_
    rw [Errs, operand, peek_bind, hp', hp]
    exact ⟨_, _, rfl⟩
  case h_10 hbool hnum hstr hvar hback hname hparen hregex heof =>
    obtain ⟨rfl, -⟩ := EStateM.Result.error.inj h
    refine .here rfl hword fun _ hp' ↦ ?_
    rw [Errs, operand, peek_bind, hp']
    cases hc : p.current with
    | boolean b => exact absurd hc (hbool b)
    | number k => exact absurd hc (hnum k)
    | strBegin => exact absurd hc hstr
    | varBegin => exact absurd hc hvar
    | backref k => exact absurd hc (hback k)
    | identifier name => exact absurd hc (hname name)
    | lparen => exact absurd hc hparen
    | regex pattern flag => exact absurd hc (hregex pattern flag)
    | eof => exact absurd hc heof
    | _ => exact ⟨_, _, rfl⟩

/-! ## One level -/

theorem map_eq_error_iff {β : Type} {f : ParserM α} {g : α → β} {p q : Parser} {e : ParseError} :
    EStateM.map g f p = .error e q ↔ f p = .error e q := by
  rw [EStateM.map]
  cases f p <;> simp

/-- What is made of a result has no part in a failure. -/
theorem Fails.map {β : Type} {f : ParserM α} {D : List Token → α → Prop}
    {D' : List Token → β → Prop} {g : α → β} (h : Fails o f D)
    (hD : ∀ {ts a}, D ts a → D' ts (g a)) : Fails o (EStateM.map g f) D' := by
  intro p r e ho hr he
  refine .step (.stay p) (h ho (map_eq_error_iff.1 hr) he) ?_ fun _ hm _ _ herr ↦ ?_
  · rintro us ⟨a, ha⟩
    exact .of_nil ⟨g a, hD ha⟩
  · obtain ⟨e', r', herr⟩ := herr
    obtain rfl := hm.eq_of_nil
    exact ⟨e', r', map_eq_error_iff.2 herr⟩

/-- What is known of the levels below one, where they succeed. -/
theorem reads_below : ∀ m, n = m + 1 → GrammarReads o (level m) m := fun m _ ↦ level_reads m

theorem accepts_below : ∀ m, n = m + 1 → GrammarAccepts o (level m) m := fun m _ ↦ level_accepts m

theorem concatenation_fails (hb : ∀ m, n = m + 1 → GrammarFails o (level m) m) :
    Fails o (concatenation (below n)) (Phrase.Concat o n) := by
  have hitem : Fails o ((operand (below n)).map fun e ↦ [e]) (Phrase.Single o n) :=
    .map (operand_fails hb) fun h ↦ ⟨_, rfl, h⟩
  have hchain : Fails o (chain (· == .dot) (· ++ ·) ((operand (below n)).map fun e ↦ [e]))
      (Phrase.Operands o n) := by
    refine chain_fails (by decide) hitem (single_reads reads_below)
      (single_accepts accepts_below) ?_ ?_
    · rintro ts es ⟨e, rfl, he⟩
      exact .one he
    · rintro ts us es fs hes ⟨e, rfl, he⟩
      exact .dot hes he
  rw [concatenation_eq]
  exact .map hchain fun h ↦ Phrase.concat_iff.2 ⟨_, h, rfl⟩

/-- What starts with an operand fails behind it as what follows the operand does. -/
theorem concatenation_replay {p q : Parser} {e : Expr} (ho : p.options = o)
    (h : concatenation (below n) p = .ok e q) :
    ∃ ts, Moves p ts q ∧ Phrase.Concat o n ts e ∧ ConcatEnds ts.getLast? q.current ∧
      ∀ {p' q' : Parser}, p'.options = o → Moves p' ts q' → q'.current = q.current →
        concatenation (below n) p' = .ok e q' :=
  (concatenation_reads reads_below).replay (concatenation_accepts accepts_below) ho h

/-- What stands in braces, with the braces. -/
theorem list_fails (hb : ∀ m, n = m + 1 → GrammarFails o (level m) m) {c : List Expr → Expr}
    {p r : Parser} {e : ParseError} (ho : p.options = o)
    (h : (expect .lbrace >>= fun _ ↦ items .rbrace (concatenation (below n)) >>= fun es ↦
      pure (c es)) p = .error e r) (he : e.Misplaced) :
    FailsAt o (Errs (expect .lbrace >>= fun _ ↦ items .rbrace (concatenation (below n)) >>= fun es ↦
        pure (c es)))
      (fun us ↦ ∃ vs es, us = .lbrace :: vs ++ [.rbrace] ∧ Phrase.Items o n vs es) p e := by
  obtain h | ⟨⟨⟩, p₁, h₁, h⟩ := bind_eq_error_iff.1 h
  · refine .first (expect_fails h he (.of_two .lbrace .rbrace rfl))
      (P := (· = [.lbrace, .rbrace])) ?_
    rintro _ rfl
    exact .of_nil ⟨[], [], rfl, .nil⟩
  · obtain ⟨hp, ha⟩ := expect_eq_ok_iff.1 h₁
    have ho₁ := (Moves.one hp (by decide) ha).options_eq.trans ho
    refine .token hp (by decide) ha (items_fails .rbrace (concatenation_fails hb)
      (concatenation_reads reads_below) (concatenation_accepts accepts_below) ho₁
      (bind_pure_eq_error_iff.1 h) he) ?_ fun hp' ha' hk ↦ ?_
    · rintro _ ⟨vs, es, rfl, hes⟩
      exact .of_nil ⟨vs, es, rfl, hes⟩
    · exact (bind_of_ok (expect_of_advance hp' ha') _).trans (bind_of_error hk _)

/-- Behind an operand the failure is in the other operand of a relation. -/
theorem relation_fails (hb : ∀ m, n = m + 1 → GrammarFails o (level m) m) {p r : Parser}
    {e : ParseError} {ts : List Token} {left : Expr} (hleft : Phrase.Concat o n ts left)
    (ho : p.options = o) (h : relation (below n) left p = .error e r) (he : e.Misplaced) :
    FailsAt o (Errs (relation (below n) left)) (fun us ↦ ∃ a, Phrase.Comparison o n (ts ++ us) a)
      p e := by
  obtain ⟨m, hm, h⟩ := of_peek_bind h
  split at hm <;> subst hm
  case h_1 op hp =>
    refine .behind skips_advance hp (by simp) ho h he
      (fun ho₁ h ↦ (concatenation_fails hb).bind_pure ho₁ h he) ?_ fun hp' ↦ ?_
    · rintro us ⟨f, hf⟩
      exact .of_nil ⟨_, .test (.compare op hleft hf)⟩
    · rw [relation, peek_bind, hp']
  case h_2 hp =>
    refine .behind skips_advance hp (by simp) ho h he
      (fun _ h ↦ .first (regexLiteral_fails (bind_pure_eq_error_iff.1 h) he).2
        fun _ hr ↦ .of_nil hr)
      ?_ fun hp' ↦ ?_
    · rintro _ ⟨t, r, rfl, hr⟩
      exact .of_nil ⟨_, .test (.isMatch hleft hr)⟩
    · rw [relation, peek_bind, hp']
  case h_3 hp =>
    refine .behind skips_advance hp (by simp) ho h he
      (fun _ h ↦ .first (regexLiteral_fails (bind_pure_eq_error_iff.1 h) he).2
        fun _ hr ↦ .of_nil hr)
      ?_ fun hp' ↦ ?_
    · rintro _ ⟨t, r, rfl, hr⟩
      exact .of_nil ⟨_, .test (.isNoMatch hleft hr)⟩
    · rw [relation, peek_bind, hp']
  case h_4 hp =>
    refine .behind skips_advance hp (by simp) ho h he (fun ho₁ h ↦ list_fails hb ho₁ h he) ?_
      fun hp' ↦ ?_
    · rintro _ ⟨vs, es, rfl, hes⟩
      refine .of_nil ⟨.isIn left es, .test ?_⟩
      simpa using Phrase.Test.isIn hleft hes
    · rw [relation, peek_bind, hp']
  case h_5 op hp =>
    refine .behind skips_advance hp (by simp) ho h he
      (fun ho₁ h ↦ (concatenation_fails hb).bind_pure ho₁ h he) ?_ fun hp' ↦ ?_
    · rintro us ⟨f, hf⟩
      exact .of_nil ⟨_, .test (.binaryTest op hleft hf)⟩
    · rw [relation, peek_bind, hp']
  case h_6 => cases h

/-- At a regex literal no failure of a test of the client's address is misplaced, and anywhere else
it is a failure of the network. -/
theorem clientTest_fails (hb : ∀ m, n = m + 1 → GrammarFails o (level m) m) {p r : Parser}
    {e : ParseError} (ho : p.options = o) (h : clientTest (below n) p = .error e r)
    (he : e.Misplaced) :
    FailsAt o (Errs (clientTest (below n)))
      (fun us ↦ ∃ a, Phrase.Comparison o n (.unaryOp "-R" :: us) a) p e := by
  obtain ⟨m, hm, h⟩ := of_peek_bind h
  split at hm <;> subst hm
  case h_1 pattern flag hp =>
    obtain h | ⟨f, p₁, h₁, h⟩ := bind_eq_error_iff.1 h
    · exact absurd hp ((regexLiteral_fails (o := o) h he).1 pattern flag)
    · cases h
  case h_2 hp =>
    refine ((concatenation_fails hb).bind_pure ho h he).congr ?_ fun hp' ↦ ?_
    · rintro us ⟨a, ha⟩
      exact .of_nil ⟨_, .test (.clientBlock ha)⟩
    · rw [clientTest, peek_bind, hp']
      cases hc : p.current with
      | regex pattern flag => exact absurd hc (hp pattern flag)
      | _ => rfl

/-- What starts with an operand: a relation may follow it. -/
theorem related_fails (hb : ∀ m, n = m + 1 → GrammarFails o (level m) m) {p r : Parser}
    {e : ParseError} (ho : p.options = o)
    (h : (concatenation (below n) >>= relation (below n)) p = .error e r) (he : e.Misplaced) :
    FailsAt o (Errs (concatenation (below n) >>= relation (below n)))
      (fun us ↦ ∃ a, Phrase.Comparison o n us a) p e := by
  obtain h | ⟨left, p₁, h₁, h⟩ := bind_eq_error_iff.1 h
  · refine .first (concatenation_fails hb ho h he) ?_
    rintro us ⟨a, ha⟩
    exact .of_nil ⟨a, .concat ha⟩
  · obtain ⟨ts, hm, hleft, -, hrep⟩ := concatenation_replay ho h₁
    exact .second hm hrep (relation_fails hb hleft (hm.options_eq.trans ho) h he)
      fun _ h ↦ .of_nil h

/-- A test of one operand, or an operand and what follows it. -/
theorem bareComparison_fails (hb : ∀ m, n = m + 1 → GrammarFails o (level m) m) :
    Fails o (bareComparison (below n)) (Phrase.Comparison o n) := by
  intro p r e ho h he
  obtain ⟨m, hm, h⟩ := of_peek_bind h
  split at hm <;> subst hm
  case h_1 op hp =>
    by_cases hop : op = "-R"
    · subst hop
      rw [if_pos rfl] at h
      refine .behind skips_advance hp (by simp) ho h he (fun ho₁ h ↦ clientTest_fails hb ho₁ h he)
        (fun _ ha ↦ .of_nil ha) fun hp' ↦ ?_
      rw [bareComparison, peek_bind, hp']
      rfl
    · rw [if_neg hop] at h
      refine .behind skips_advance hp (by simp) ho h he
        (fun ho₁ h ↦ (concatenation_fails hb).bind_pure ho₁ h he) ?_ fun hp' ↦ ?_
      · rintro us ⟨f, hf⟩
        exact .of_nil ⟨_, .test (.unaryTest hop hf)⟩
      · rw [bareComparison, peek_bind, hp']
        simp only [if_neg hop]
  case h_2 hp =>
    refine (related_fails hb ho h he).congr (fun _ h ↦ .of_nil h) fun hp' ↦ ?_
    rw [bareComparison, peek_bind, hp']
    cases hc : p.current with
    | unaryOp op => exact absurd hc (hp op)
    | _ => rfl

/-- **A comparison fails at the first misplaced token**, which may be the operator of a second one.
What is in front of that operator is a comparison by itself, so it is the operator that is
misplaced. -/
theorem comparison_fails (hb : ∀ m, n = m + 1 → GrammarFails o (level m) m) :
    Fails o (comparison (below n)) (Phrase.Comparison o n) := by
  intro p r e ho h he
  rw [comparison_eq] at h ⊢
  obtain h | ⟨a, p₁, h₁, h⟩ := bind_eq_error_iff.1 h
  · exact .first (bareComparison_fails hb ho h he) fun _ h ↦ .of_nil h
  obtain ⟨ts, hm, hbare⟩ := bareComparison_ok reads_below ho h₁
  rw [check_bind] at h
  by_cases hrel : isRelational p₁.current = true
  · rw [if_pos hrel] at h
    obtain ⟨rfl, -⟩ := EStateM.Result.error.inj h
    refine .second hm (fun ho' hm' hcur ↦
      bareComparison_eq_ok accepts_below ho' (hcur ▸ hbare) hm') (P := (· = [])) ?_ ?_
    · refine .here rfl (.of_nil rfl) fun _ hp' ↦ ?_
      rw [Errs]
      simp only [check_bind, if_pos (hp' ▸ hrel), unexpected_run]
      exact ⟨_, _, rfl⟩
    · rintro _ rfl
      rw [List.append_nil]
      cases hbare with
      | concat ha _ _ => exact .of_nil ⟨a, .concat ha⟩
      | test ha _ => exact .of_nil ⟨a, .test ha⟩
  · rw [if_neg hrel] at h
    cases h

/-- **A negation fails at the first misplaced token.**  Behind a `!` it is that of the negation
inside. -/
theorem negation_fails (hb : ∀ m, n = m + 1 → GrammarFails o (level m) m) :
    Fails o (negation (below n)) (Phrase.Negation o n) := by
  intro p r e ho h he
  rw [negation, check_bind] at h
  by_cases hp : p.current = .not
  · rw [if_pos (by simpa using hp)] at h
    refine (FailsAt.nested skips_advance hp (by decide) ho h he
      (fun m hm _ _ ho₁ h₁ ↦ (hb m hm).negation.bind_pure ho₁ h₁ he) ?_).congr
        (fun _ h ↦ .of_nil h) fun hp' ↦ ?_
    · rintro m rfl us ⟨a, ha⟩
      exact .of_nil ⟨_, .not ha⟩
    · rw [negation, check_bind, if_pos (by simpa using hp'.trans hp)]
  · rw [if_neg (by simpa using hp)] at h
    refine (comparison_fails hb ho h he).congr ?_ fun hp' ↦ ?_
    · rintro us ⟨a, ha⟩
      exact .of_nil ⟨a, .comparison ha⟩
    · rw [negation, check_bind, if_neg (by simpa using hp' ▸ hp)]

theorem conjunction_fails (hb : ∀ m, n = m + 1 → GrammarFails o (level m) m) :
    Fails o (conjunction (below n)) (Phrase.Conjunction o n) :=
  chain_fails (by decide) (negation_fails hb) (negation_reads reads_below)
    (negation_accepts accepts_below) .one .and

theorem disjunction_fails (hb : ∀ m, n = m + 1 → GrammarFails o (level m) m) :
    Fails o (disjunction (below n)) (Phrase.Disjunction o n) :=
  chain_fails (by decide) (conjunction_fails hb) (conjunction_reads reads_below)
    (conjunction_accepts accepts_below) .one .or

/-- **The grammar fails at the first misplaced token**, however many constructs it may open. -/
theorem level_fails (n : Nat) : GrammarFails o (level n) n := by
  induction n with
  | zero =>
    have hb : ∀ m, 0 = m + 1 → GrammarFails o (level m) m := fun m hm ↦ absurd hm (by simp)
    rw [level_eq]
    exact ⟨disjunction_fails hb, negation_fails hb, concatenation_fails hb⟩
  | succ n ih =>
    have hb : ∀ m, n + 1 = m + 1 → GrammarFails o (level m) m := fun m hm ↦ Nat.succ.inj hm ▸ ih
    rw [level_eq]
    exact ⟨disjunction_fails hb, negation_fails hb, concatenation_fails hb⟩

/-! ## Whole sources

A parser that has read an expression asks for the end of the source. -/

/-- A parser at its start fails at the first token that no condition goes on with. -/
theorem whole_fails {p r : Parser} {e : ParseError} (hd : p.depth = 0) (ho : p.options = o)
    (h : whole p = .error e r) (he : e.Misplaced) :
    FailsAt o (fun _ q ↦ q.depth = 0 → ∃ e' r', whole q = .error e' r')
      (fun ts ↦ ∃ a, Phrase.Disjunction o maxNestingDepth ts a) p e := by
  rw [whole_eq hd] at h
  obtain h | ⟨a, p₁, h₁, h⟩ := bind_eq_error_iff.1 h
  · refine .step (.stay p) ((level_fails maxNestingDepth).expression ho h he) (fun _ h ↦ .of_nil h)
      fun _ hm _ _ herr hd' ↦ ?_
    obtain ⟨e', r', herr⟩ := herr
    obtain rfl := hm.eq_of_nil
    exact ⟨e', r', (whole_eq hd').trans (bind_of_error herr _)⟩
  obtain ⟨ts, hm, ha, -, hrep⟩ := (level_reads maxNestingDepth).expression.replay
    (level_accepts maxNestingDepth).expression ho h₁
  rw [check_bind] at h
  by_cases hp₁ : p₁.current = .eof
  · rw [if_pos (by simpa using hp₁)] at h
    cases h
  · rw [if_neg (by simpa using hp₁)] at h
    obtain ⟨rfl, -⟩ := EStateM.Result.error.inj h
    refine ⟨ts, p₁, hm, rfl, .of_nil ⟨a, ha⟩, fun p' q' ho' hm' hcur hd' ↦ ?_⟩
    rw [whole_eq hd', bind_of_ok (hrep ho' hm' hcur), check_bind,
      if_neg (by simpa using hcur ▸ hp₁)]
    exact ⟨_, _, rfl⟩

end Parser

end RequestCondition

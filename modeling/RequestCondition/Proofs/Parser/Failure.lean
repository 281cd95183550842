import RequestCondition.Proofs.Parser.Completeness

/-!
# Where parsers fail

A parser that fails because of a misplaced token has moved over some tokens and stands at that one.
`Parser.FailsAt` says the two things that make it the first misplaced token.  What has been moved
over could have been finished: some tokens more, and plain ones at that (`Phrase.Filler`), make it a
phrase.  And with the misplaced token nothing could: from whatever state the parser comes to it over
the same tokens, it fails.

The second part is about runs of the same parser on other tokens.  They go the same way as long as
the tokens are the same, because what was read once is a phrase (`Parser.Reads`) and is read again
where it stands again (`Parser.Accepts`).

That nothing goes on with the misplaced token could be said of phrases: none starts with these
tokens and that one.  It is said of runs instead, since a proof about a function of the grammar is
at hand where the function is known to fail, step by step; and for a whole source it comes to the
same, as a parser that fails has read no condition.

* **Errors that count.**  A malformed token, a regex that cannot be used and too many open
  constructs are errors of another kind.  `ParseError.Misplaced` leaves them out, and so a step that
  moves on is never where a misplaced token is found (`not_misplaced_of_advance`).
* **Composition.**  Of two steps the first may fail (`FailsAt.first`), or the second behind what the
  first has read (`FailsAt.second`).  In the second case the first is run again on other tokens, and
  `Reads.replay` is what makes it read the same.
* **Finishing.**  A phrase inside another is finished first, and then what is around it; `extend`
  puts the two together.  A few tokens are enough: the word `a` where an operand is missing, the
  empty regex where a literal is, and whatever closes what is open.
* **Loops.**  A loop that fails has a bound, and is run again with the bound of another state.
  `LoopErrs` asks for failure with every bound that is large enough.

The functions that read references, strings, regex literals and lists are dealt with here; the
levels of the grammar are left for the module behind.
-/

set_option autoImplicit false

namespace RequestCondition

namespace Phrase

/-- The tokens that are enough to finish what has been begun. -/
inductive Filler : Token → Prop
  | word : Filler (.identifier "a")
  | regex : Filler (.regex "" false)
  | lbrace : Filler .lbrace
  | rbrace : Filler .rbrace
  | rparen : Filler .rparen
  | varEnd : Filler .varEnd
  | strEnd : Filler .strEnd

/-- Some plain tokens make a phrase of `ts`. -/
def Finishable (P : List Token → Prop) (ts : List Token) : Prop :=
  ∃ us, (∀ t ∈ us, Filler t) ∧ P (ts ++ us)

namespace Finishable

variable {P Q : List Token → Prop} {ts us : List Token} {t u : Token}

theorem of_nil (h : P ts) : Finishable P ts :=
  ⟨[], nofun, by rwa [List.append_nil]⟩

theorem of_one (ht : Filler t) (h : P (ts ++ [t])) : Finishable P ts :=
  ⟨[t], by simpa using ht, h⟩

theorem of_two (ht : Filler t) (hu : Filler u) (h : P (ts ++ [t, u])) : Finishable P ts :=
  ⟨[t, u], by simpa using ⟨ht, hu⟩, h⟩

/-- What finishes a part finishes the whole. -/
theorem extend (h : Finishable P us) (hPQ : ∀ us, P us → Finishable Q (ts ++ us)) :
    Finishable Q (ts ++ us) := by
  obtain ⟨vs, hvs, hP⟩ := h
  obtain ⟨ws, hws, hQ⟩ := hPQ _ hP
  refine ⟨vs ++ ws, fun t ht ↦ (List.mem_append.1 ht).elim (hvs t) (hws t), ?_⟩
  simpa only [List.append_assoc] using hQ

end Finishable

/-- The empty regex can be used. -/
theorem usable_empty (o : ParseOptions) :
    Usable o (.regex "" false) ⟨"", false || o.ignoreCase⟩ :=
  .regex (o.engine.compiles_empty _)

end Phrase

namespace ParseError

/-- Whether an error is about a token that cannot stand where it does. -/
def Misplaced (e : ParseError) : Prop := e.kind = .grammar ∧ e.cause ≠ .nestedTooDeeply

end ParseError

namespace Parser

open Phrase (Finishable Filler)

variable {α β : Type} {o : ParseOptions} {n : Nat}

/-- Moving on fails at malformed tokens, never at misplaced ones. -/
theorem not_misplaced_of_advance {p q : Parser} {e : ParseError} (h : advance p = .error e q) :
    ¬ e.Misplaced := by
  intro he
  rw [ParseError.Misplaced, kind_of_advance_eq_error h] at he
  cases he.1

theorem not_misplaced_of_discard {p q : Parser} {e : ParseError} (h : discard p = .error e q) :
    ¬ e.Misplaced :=
  not_misplaced_of_advance (p := p.cleared) h

/-- Running `f` fails. -/
def Errs (f : ParserM α) (_ : List Token) (p : Parser) : Prop := ∃ e q, f p = .error e q

/-- Running a loop fails, if its bound is above the number of tokens up to the failure. -/
def LoopErrs (f : Nat → ParserM α) (ts : List Token) (p : Parser) : Prop :=
  ∀ n, ts.length < n → ∃ e q, f n p = .error e q

/-- A parser that fails with `e` at `p` moves over tokens that can be finished, up to the token that
`e` points at; and `fails` is what happens wherever it moves over them to that token. -/
def FailsAt (o : ParseOptions) (fails : List Token → Parser → Prop) (P : List Token → Prop)
    (p : Parser) (e : ParseError) : Prop :=
  ∃ ts q, Moves p ts q ∧ e.offset = q.offset ∧ Finishable P ts ∧
    ∀ ⦃p' q' : Parser⦄, p'.options = o → Moves p' ts q' → q'.current = q.current → fails ts p'

namespace FailsAt

variable {fails fails₁ : List Token → Parser → Prop} {P Q : List Token → Prop} {p p₁ : Parser}
  {e : ParseError} {ts : List Token}

theorem here (hoff : e.offset = p.offset) (hP : Finishable P [])
    (hf : ∀ {p' : Parser}, p'.options = o → p'.current = p.current → fails [] p') :
    FailsAt o fails P p e := by
  refine ⟨[], p, .stay p, hoff, hP, fun p' q' ho hm hq ↦ ?_⟩
  obtain rfl := hm.eq_of_nil
  exact hf ho hq

/-- A failure behind some tokens. -/
theorem step (hm : Moves p ts p₁) (h : FailsAt o fails₁ P p₁ e)
    (hPQ : ∀ us, P us → Finishable Q (ts ++ us))
    (hf : ∀ {p' q' r' : Parser} {us : List Token}, p'.options = o → Moves p' ts q' →
      q'.current = p₁.current → Moves q' us r' → fails₁ us q' → fails (ts ++ us) p') :
    FailsAt o fails Q p e := by
  obtain ⟨us, q, hq, hoff, hP, hrep⟩ := h
  refine ⟨ts ++ us, q, hm.trans hq, hoff, hP.extend hPQ, fun p' r' ho hr hcur ↦ ?_⟩
  obtain ⟨q', hm', hr'⟩ := hr.split
  have hcur' : q'.current = p₁.current := hr'.current_eq hq hcur
  exact hf ho hm' hcur' hr' (hrep (hm'.options_eq.trans ho) hr' hcur)

/-- The count of open constructs has no part in it. -/
theorem withDepth {k : Nat} (h : FailsAt o fails P (p.withDepth k) e) :
    FailsAt o (fun us q ↦ ∀ m, fails us (q.withDepth m)) P p e := by
  obtain ⟨us, q, hq, hoff, hP, hrep⟩ := h
  have hq' := hq.withDepth p.depth
  rw [withDepth_withDepth, withDepth_self] at hq'
  exact ⟨us, q.withDepth p.depth, hq', hoff, hP,
    fun p' q' ho hm hcur m ↦ hrep ho (hm.withDepth m) hcur⟩

/-- A failure behind one token. -/
theorem token {t : Token} {f : ParserM α} {k : ParserM β} (hp : p.current = t) (ht : t ≠ .eof)
    (ha : advance p = .ok () p₁) (h : FailsAt o (Errs k) P p₁ e)
    (hPQ : ∀ us, P us → Finishable Q (t :: us))
    (hf : ∀ {p' q' r : Parser} {e' : ParseError}, p'.current = t → advance p' = .ok () q' →
      k q' = .error e' r → f p' = .error e' r) : FailsAt o (Errs f) Q p e := by
  refine step (.one hp ht ha) h hPQ fun _ hm _ _ hk ↦ ?_
  obtain ⟨e', r, hk⟩ := hk
  obtain ⟨hp', -, q', ha', hm⟩ := hm.uncons
  obtain rfl := hm.eq_of_nil
  exact ⟨e', r, hf hp' ha' hk⟩

theorem first {g : ParserM β} {f : β → ParserM α} (h : FailsAt o (Errs g) P p e)
    (hPQ : ∀ us, P us → Finishable Q us) : FailsAt o (Errs (g >>= f)) Q p e := by
  refine step (.stay p) h hPQ fun _ hm _ _ hk ↦ ?_
  obtain ⟨e', r, hk⟩ := hk
  obtain rfl := hm.eq_of_nil
  exact ⟨e', r, bind_of_error hk f⟩

/-- A failure behind a first step. -/
theorem second {g : ParserM β} {f : β → ParserM α} {b : β} (hm : Moves p ts p₁)
    (hrep : ∀ {p' q' : Parser}, p'.options = o → Moves p' ts q' → q'.current = p₁.current →
      g p' = .ok b q')
    (h : FailsAt o (Errs (f b)) P p₁ e) (hPQ : ∀ us, P us → Finishable Q (ts ++ us)) :
    FailsAt o (Errs (g >>= f)) Q p e := by
  refine step hm h hPQ fun ho hm' hcur _ hk ↦ ?_
  obtain ⟨e', r, hk⟩ := hk
  exact ⟨e', r, (bind_of_ok (hrep ho hm' hcur) f).trans hk⟩

end FailsAt

/-- Moving past a token by `step` is to move on, and fails at malformed tokens only. -/
structure Skips (step : ParserM Unit) : Prop where
  ok {p q : Parser} : step p = .ok () q ↔ advance p = .ok () q
  error {p q : Parser} {e : ParseError} : step p = .error e q → ¬ e.Misplaced

theorem skips_advance : Skips advance := ⟨Iff.rfl, not_misplaced_of_advance⟩

theorem skips_discard : Skips discard := ⟨discard_eq_ok_iff, not_misplaced_of_discard⟩

theorem bind_pure_eq_error_iff {g : ParserM β} {c : β → α} {p r : Parser} {e : ParseError} :
    (g >>= fun b ↦ pure (c b)) p = .error e r ↔ g p = .error e r := by
  rw [bind_eq_error_iff]
  constructor
  · rintro (h | ⟨b, q, -, h⟩)
    · exact h
    · cases h
  · exact .inl

/-- What starts with a token fails behind it as what follows the token does. -/
theorem FailsAt.behind {step : ParserM Unit} {f k : ParserM α} {P Q : List Token → Prop} {t : Token}
    {p r : Parser} {e : ParseError} (hstep : Skips step) (hp : p.current = t) (ht : t ≠ .eof)
    (ho : p.options = o) (h : (step >>= fun _ ↦ k) p = .error e r) (he : e.Misplaced)
    (hk : ∀ {p₁ r₁ : Parser}, p₁.options = o → k p₁ = .error e r₁ → FailsAt o (Errs k) P p₁ e)
    (hPQ : ∀ us, P us → Finishable Q (t :: us))
    (hf : ∀ {p' : Parser}, p'.current = t → f p' = (step >>= fun _ ↦ k) p') :
    FailsAt o (Errs f) Q p e := by
  obtain h | ⟨⟨⟩, p₁, h₁, h⟩ := bind_eq_error_iff.1 h
  · exact absurd he (hstep.error h)
  · have ha := hstep.ok.1 h₁
    have ho₁ := (Moves.one hp ht ha).options_eq.trans ho
    refine .token hp ht ha (hk ho₁ h) hPQ fun hp' ha' hk' ↦ ?_
    rw [hf hp']
    exact (bind_of_ok (hstep.ok.2 ha') _).trans hk'

/-- What runs alike from the same token fails alike. -/
theorem FailsAt.congr {f g : ParserM α} {P Q : List Token → Prop} {p : Parser} {e : ParseError}
    (h : FailsAt o (Errs f) P p e) (hPQ : ∀ us, P us → Finishable Q us)
    (hfg : ∀ {p' : Parser}, p'.current = p.current → g p' = f p') : FailsAt o (Errs g) Q p e := by
  refine .step (.stay p) h hPQ fun _ hm hcur _ herr ↦ ?_
  obtain ⟨e', r', herr⟩ := herr
  obtain rfl := hm.eq_of_nil
  exact ⟨e', r', (hfg hcur).trans herr⟩

/-- Wherever `f` fails at a misplaced token, it has moved over what can be finished to a phrase of
the kind `D`. -/
def Fails (o : ParseOptions) (f : ParserM α) (D : List Token → α → Prop) : Prop :=
  ∀ ⦃p r : Parser⦄ ⦃e : ParseError⦄, p.options = o → f p = .error e r → e.Misplaced →
    FailsAt o (Errs f) (fun ts ↦ ∃ a, D ts a) p e

/-- What is made of a result has no part in a failure. -/
theorem Fails.bind_pure {f : ParserM β} {D : List Token → β → Prop} {c : β → α} (h : Fails o f D)
    {p r : Parser} {e : ParseError} (ho : p.options = o)
    (hr : (f >>= fun b ↦ pure (c b)) p = .error e r) (he : e.Misplaced) :
    FailsAt o (Errs (f >>= fun b ↦ pure (c b))) (fun ts ↦ ∃ b, D ts b) p e :=
  .first (h ho (bind_pure_eq_error_iff.1 hr) he) fun _ hb ↦ .of_nil hb

/-- What is read once is read wherever it stands with the same token behind it. -/
theorem Reads.replay {f : ParserM α} {D : List Token → α → Prop}
    {ends : Option Token → Token → Prop} (hr : Reads o f D ends) (ha : Accepts o f D ends)
    {p q : Parser} {a : α} (ho : p.options = o) (h : f p = .ok a q) :
    ∃ ts, Moves p ts q ∧ D ts a ∧ ends ts.getLast? q.current ∧
      ∀ {p' q' : Parser}, p'.options = o → Moves p' ts q' → q'.current = q.current →
        f p' = .ok a q' := by
  obtain ⟨ts, hm, hD, hends⟩ := hr ho h
  exact ⟨ts, hm, hD, hends, fun ho' hm' hcur ↦ ha ho' hD hm' (hcur ▸ hends)⟩

/-! ## Loops

What a loop has read before it fails is part of what can be finished, so the statements carry the
phrase that stands to the left. -/

theorem expect_eq_error {t : Token} {p r : Parser} {e : ParseError} (h : expect t p = .error e r)
    (he : e.Misplaced) : p.current ≠ t ∧ e.offset = p.offset := by
  by_cases hp : p.current = t
  · rw [expect, check_bind, if_pos (by simpa using hp)] at h
    exact absurd he (not_misplaced_of_advance h)
  · rw [expect_eq_error_of_ne hp] at h
    obtain ⟨rfl, -⟩ := EStateM.Result.error.inj h
    exact ⟨hp, rfl⟩

/-- Asking for a token fails where another one stands. -/
theorem expect_fails {t : Token} {P : List Token → Prop} {p r : Parser} {e : ParseError}
    (h : expect t p = .error e r) (he : e.Misplaced) (hP : Finishable P []) :
    FailsAt o (Errs (expect t)) P p e := by
  obtain ⟨hp, hoff⟩ := expect_eq_error h he
  exact .here hoff hP fun _ hp' ↦ ⟨_, _, expect_eq_error_of_ne (hp' ▸ hp)⟩

/-- A loop over operands fails where an item does, behind an operator; what stands to the left is
finished with the item. -/
theorem moreOperands_fails {op : Token} {join : α → α → α} {item : ParserM α}
    {I C : List Token → α → Prop} {ends : Option Token → Token → Prop} (hop : op ≠ .eof)
    (hitem : Fails o item I) (hreads : Reads o item I ends) (haccepts : Accepts o item I ends)
    (hC : ∀ {ts us a b}, C ts a → I us b → C (ts ++ op :: us) (join a b)) {n : Nat} :
    ∀ {p r : Parser} {e : ParseError} {ts : List Token} {left : α}, p.options = o → C ts left →
      moreOperands (· == op) join item n left p = .error e r → e.Misplaced →
      FailsAt o (LoopErrs fun n ↦ moreOperands (· == op) join item n left)
        (fun us ↦ ∃ a, C (ts ++ us) a) p e := by
  induction n with
  | zero => intro p r e ts left _ _ h; cases h
  | succ n ih =>
    intro p r e ts left ho hleft h he
    rw [moreOperands, check_bind] at h
    by_cases hp : p.current = op
    · rw [if_pos (by simpa using hp)] at h
      obtain h | ⟨⟨⟩, p₁, h₁, h⟩ := bind_eq_error_iff.1 h
      · exact absurd he (not_misplaced_of_advance h)
      have hm₁ : Moves p [op] p₁ := .one hp hop h₁
      have ho₁ : p₁.options = o := hm₁.options_eq.trans ho
      obtain h | ⟨b, p₂, h₂, h⟩ := bind_eq_error_iff.1 h
      · refine .step hm₁ (hitem ho₁ h he) ?_ fun _ hm _ _ herr m hlen ↦ ?_
        · rintro us ⟨b, hb⟩
          exact .of_nil ⟨_, hC hleft hb⟩
        · obtain ⟨e', r', herr⟩ := herr
          obtain ⟨m, rfl⟩ := Nat.exists_eq_succ_of_ne_zero (Nat.ne_of_gt (Nat.zero_lt_of_lt hlen))
          obtain ⟨hp', -, q', ha', hm⟩ := hm.uncons
          obtain rfl := hm.eq_of_nil
          refine ⟨e', r', ?_⟩
          change moreOperands _ _ _ (m + 1) left _ = _
          rw [moreOperands, check_bind, if_pos (by simpa using hp'), bind_of_ok ha',
            bind_of_error herr]
      · obtain ⟨us, hm₂, hb, -, hrep⟩ := hreads.replay haccepts ho₁ h₂
        have hm : Moves p (op :: us) p₂ := hm₁.trans hm₂
        refine .step hm (ih (hm.options_eq.trans ho) (hC hleft hb) h he) ?_
          fun ho' hm' hcur hr' herr m hlen ↦ ?_
        · rintro vs ⟨a, ha⟩
          rw [List.append_assoc] at ha
          exact .of_nil ⟨a, ha⟩
        · obtain ⟨m, rfl⟩ := Nat.exists_eq_succ_of_ne_zero (Nat.ne_of_gt (Nat.zero_lt_of_lt hlen))
          obtain ⟨hp', hop', q', ha', hm'⟩ := hm'.uncons
          have ho'' := (Moves.one hp' hop' ha').options_eq.trans ho'
          obtain ⟨e', r', herr⟩ := herr m (by
            rw [List.length_append, List.length_cons] at hlen
            omega)
          refine ⟨e', r', ?_⟩
          change moreOperands _ _ _ (m + 1) left _ = _
          rw [moreOperands, check_bind, if_pos (by simpa using hp'), bind_of_ok ha',
            bind_of_ok (hrep ho'' hm' hcur)]
          exact herr
    · rw [if_neg (by simpa using hp)] at h
      cases h

/-- **A chain fails at the first misplaced token**, if its items do.  Either the first item fails,
and what would finish it would finish the chain; or it is read, and the loop behind it fails.  In
the second case the item is read again from any state that agrees up to the failure, which is why it
has to be known that items are read and what they are. -/
theorem chain_fails {op : Token} {join : α → α → α} {item : ParserM α}
    {I C : List Token → α → Prop} {ends : Option Token → Token → Prop} (hop : op ≠ .eof)
    (hitem : Fails o item I) (hreads : Reads o item I ends) (haccepts : Accepts o item I ends)
    (hone : ∀ {ts a}, I ts a → C ts a)
    (hC : ∀ {ts us a b}, C ts a → I us b → C (ts ++ op :: us) (join a b)) :
    Fails o (chain (· == op) join item) C := by
  intro p r e ho h he
  obtain h | ⟨left, p₁, h₁, h⟩ := bind_eq_error_iff.1 h
  · refine .first (hitem ho h he) ?_
    rintro us ⟨a, ha⟩
    exact .of_nil ⟨a, hone ha⟩
  obtain ⟨ts, hm, hleft, -, hrep⟩ := hreads.replay haccepts ho h₁
  rw [check_bind] at h
  by_cases hp : p₁.current = op
  · rw [if_pos (by simpa using hp), get_bind] at h
    have hloop := moreOperands_fails hop hitem hreads haccepts hC (hm.options_eq.trans ho)
      (hone hleft) h he
    refine .step hm hloop ?_ fun {p' q'} _ us ho' hm' hcur hr' herr ↦ ?_
    · rintro us ⟨a, ha⟩
      exact .of_nil ⟨a, ha⟩
    · obtain ⟨e', r', herr⟩ := herr q'.fuel hr'.length_lt_fuel
      refine ⟨e', r', ?_⟩
      rw [chain, bind_of_ok (hrep ho' hm' hcur), check_bind,
        if_pos (by simpa using hcur.trans hp), get_bind]
      exact herr
  · rw [if_neg (by simpa using hp)] at h
    cases h

/-- The items of a list fail where an item does, or where neither a comma nor the end of the list
stands behind one. -/
theorem moreItems_fails {close : Token} {item : ParserM Expr}
    (hitem : Fails o item (Phrase.Concat o n))
    (hreads : Reads o item (Phrase.Concat o n) ConcatEnds)
    (haccepts : Accepts o item (Phrase.Concat o n) ConcatEnds) {k : Nat} :
    ∀ {p r : Parser} {e : ParseError}, p.options = o →
      moreItems close item k p = .error e r → e.Misplaced →
      FailsAt o (LoopErrs (moreItems close item)) (fun us ↦ ∃ es, Phrase.Items o n us es) p e := by
  induction k with
  | zero => intro p r e _ h; cases h
  | succ k ih =>
    intro p r e ho h he
    rw [moreItems, check_bind] at h
    by_cases hp : p.current = close
    · rw [if_pos (by simpa using hp)] at h
      cases h
    rw [if_neg (by simpa using hp)] at h
    obtain h | ⟨first, p₁, h₁, h⟩ := bind_eq_error_iff.1 h
    · refine .step (.stay p) (hitem ho h he) ?_ fun _ hm hcur _ herr m hlen ↦ ?_
      · rintro us ⟨a, ha⟩
        exact .of_nil ⟨[a], .last ha⟩
      · obtain ⟨e', r', herr⟩ := herr
        obtain ⟨m, rfl⟩ := Nat.exists_eq_succ_of_ne_zero (Nat.ne_of_gt (Nat.zero_lt_of_lt hlen))
        obtain rfl := hm.eq_of_nil
        refine ⟨e', r', ?_⟩
        rw [moreItems, check_bind, if_neg (by simpa using hcur ▸ hp), bind_of_error herr]
    obtain ⟨ts, hm, hfirst, -, hrep⟩ := hreads.replay haccepts ho h₁
    rw [check_bind] at h
    by_cases hp₁ : p₁.current = close
    · rw [if_pos (by simpa using hp₁)] at h
      cases h
    rw [if_neg (by simpa using hp₁)] at h
    -- wherever the first item is read again, a comma is looked for behind it
    have hbehind {m : Nat} {p' q' : Parser} (ho' : p'.options = o) (hm' : Moves p' ts q')
        (hcur : q'.current = p₁.current) : moreItems close item (m + 1) p' =
          (expect .comma >>= fun _ ↦ moreItems close item m >>= fun others ↦
            pure (first :: others)) q' := by
      have hp' := hm'.current_eq hm hcur
      rw [moreItems, check_bind, if_neg (by simpa using hp' ▸ hp),
        bind_of_ok (hrep ho' hm' hcur), check_bind, if_neg (by simpa using hcur ▸ hp₁)]
    obtain h | ⟨⟨⟩, p₂, h₂, h⟩ := bind_eq_error_iff.1 h
    · have hcomma : FailsAt o (Errs (expect .comma)) (· = []) p₁ e :=
        expect_fails h he (.of_nil rfl)
      refine .step hm hcomma ?_ fun ho' hm' hcur hr' herr m hlen ↦ ?_
      · rintro _ rfl
        rw [List.append_nil]
        exact .of_nil ⟨[first], .last hfirst⟩
      · obtain ⟨e', r', herr⟩ := herr
        obtain ⟨m, rfl⟩ := Nat.exists_eq_succ_of_ne_zero (Nat.ne_of_gt (Nat.zero_lt_of_lt hlen))
        exact ⟨e', r', (hbehind ho' hm' hcur).trans (bind_of_error herr _)⟩
    obtain ⟨hcomma, h₂⟩ := expect_eq_ok_iff.1 h₂
    have hm₂ : Moves p (ts ++ [.comma]) p₂ := hm.snoc hcomma (by decide) h₂
    obtain h | ⟨others, p₃, h₃, h⟩ := bind_eq_error_iff.1 h
    · refine .step hm₂ (ih (hm₂.options_eq.trans ho) h he) ?_
        fun ho' hm' _ hr' herr m hlen ↦ ?_
      · rintro us ⟨es, hes⟩
        rw [← List.append_cons]
        exact .of_nil ⟨first :: es, .cons hfirst hes⟩
      · obtain ⟨m, rfl⟩ := Nat.exists_eq_succ_of_ne_zero (Nat.ne_of_gt (Nat.zero_lt_of_lt hlen))
        obtain ⟨q₁, hm₁, hm'⟩ := hm'.split
        obtain ⟨hq₁, -, q₂, ha', hm'⟩ := hm'.uncons
        obtain rfl := hm'.eq_of_nil
        obtain ⟨e', r', herr⟩ := herr m (by
          simp only [List.length_append, List.length_singleton] at hlen
          omega)
        refine ⟨e', r', (hbehind ho' hm₁ (hq₁.trans hcomma.symm)).trans ?_⟩
        exact (bind_of_ok (expect_of_advance hq₁ ha') _).trans (bind_of_error herr _)
    · cases h

/-- **A list fails at the first misplaced token**, if its items do.  The closing token cannot be
what is missed: the loop ends in front of it, or not at all. -/
theorem items_fails {close : Token} (hclose : Filler close) {item : ParserM Expr}
    (hitem : Fails o item (Phrase.Concat o n))
    (hreads : Reads o item (Phrase.Concat o n) ConcatEnds)
    (haccepts : Accepts o item (Phrase.Concat o n) ConcatEnds) {p r : Parser} {e : ParseError}
    (ho : p.options = o) (h : items close item p = .error e r) (he : e.Misplaced) :
    FailsAt o (Errs (items close item))
      (fun us ↦ ∃ vs es, us = vs ++ [close] ∧ Phrase.Items o n vs es) p e := by
  rw [items, get_bind] at h
  obtain h | ⟨es, p₁, h₁, h⟩ := bind_eq_error_iff.1 h
  · refine .step (.stay p) (moreItems_fails hitem hreads haccepts ho h he) ?_
      fun {p' q'} _ us _ hm _ hr' herr ↦ ?_
    · rintro us ⟨es, hes⟩
      exact .of_one hclose ⟨us, es, rfl, hes⟩
    · obtain rfl := hm.eq_of_nil
      obtain ⟨e', r', herr⟩ := herr _ hr'.length_lt_fuel
      refine ⟨e', r', ?_⟩
      rw [items, get_bind, bind_of_error herr]
  · obtain ⟨ts, -, -, hp₁⟩ := moreItems_reads hreads ho p.weight_lt_fuel h₁
    obtain h | ⟨⟨⟩, p₂, h₂, h⟩ := bind_eq_error_iff.1 h
    · exact absurd hp₁ (expect_eq_error h he).1
    · cases h

/-! ## References, strings and regex literals

In all three the token that is asked for is given, so they fail at the first other one. -/

/-- What stands behind the name of a reference. -/
def nameEnd (name : String) : ParserM VarRef := do
  let args ← match ← peek with
    | .varArg arg => do advance; pure [arg]
    | _ => pure []
  expect .varEnd
  pure ⟨name, args⟩

/-- Behind the name of a reference the rest of it is read. -/
theorem variableBody_of_identifier {name : String} {p : Parser}
    (hp : p.current = .identifier name) :
    variableBody p = (discard >>= fun _ ↦ nameEnd name) p := by
  rw [variableBody, peek_bind, hp]
  rfl

theorem nameEnd_fails {name : String} {p r : Parser} {e : ParseError} (ho : p.options = o)
    (h : nameEnd name p = .error e r) (he : e.Misplaced) :
    FailsAt o (Errs (nameEnd name))
      (fun us ↦ ∃ ref, Phrase.Reference (.identifier name :: us) ref) p e := by
  obtain ⟨m, hm, h⟩ := of_peek_bind h
  split at hm <;> subst hm
  case h_1 arg harg =>
    have hend {p₁ r₁ : Parser} (h : (expect .varEnd >>= fun _ ↦ pure (⟨name, [arg]⟩ : VarRef)) p₁ =
        .error e r₁) : FailsAt o (Errs (expect .varEnd >>= fun _ ↦ pure (⟨name, [arg]⟩ : VarRef)))
          (· = [.varEnd]) p₁ e :=
      .first (P := (· = [.varEnd]))
        (expect_fails (bind_pure_eq_error_iff.1 h) he (.of_one .varEnd rfl)) fun _ h ↦ .of_nil h
    refine .behind skips_advance harg (by simp) ho h he (fun _ h ↦ hend h) ?_ fun hp' ↦ ?_
    · rintro _ rfl
      exact .of_nil ⟨_, .argument name arg⟩
    · rw [nameEnd, peek_bind, hp']
  case h_2 hnone =>
    rw [pure_bind] at h
    have hend : FailsAt o (Errs (expect .varEnd >>= fun _ ↦ pure (⟨name, []⟩ : VarRef)))
        (· = [.varEnd]) p e :=
      .first (P := (· = [.varEnd]))
        (expect_fails (bind_pure_eq_error_iff.1 h) he (.of_one .varEnd rfl)) fun _ h ↦ .of_nil h
    refine hend.congr ?_ fun hp' ↦ ?_
    · rintro _ rfl
      exact .of_nil ⟨_, .plain name⟩
    · rw [nameEnd, peek_bind, hp']
      cases hp : p.current with
      | varArg arg => exact absurd hp (hnone arg)
      | _ => rfl

/-- A reference fails at the first misplaced token. -/
theorem variableBody_fails : Fails o variableBody Phrase.Reference := by
  intro p r e ho h he
  obtain ⟨m, hm, h'⟩ := of_peek_bind h
  split at hm <;> subst hm
  case h_1 name hname =>
    rw [variableBody_of_identifier hname] at h
    exact .behind skips_discard hname (by simp) ho h he (fun ho₁ h ↦ nameEnd_fails ho₁ h he)
      (fun _ h ↦ .of_nil h) variableBody_of_identifier
  case h_2 hnone =>
    obtain ⟨rfl, -⟩ := EStateM.Result.error.inj h'
    refine .here rfl (.of_two .word .varEnd ⟨_, .plain "a"⟩) fun _ hp' ↦ ?_
    rw [Errs, variableBody, peek_bind, hp']
    cases hp : p.current with
    | identifier name => exact absurd hp (hnone name)
    | _ => exact ⟨_, _, rfl⟩

/-- A failure behind a part of a string that is one token. -/
theorem moreParts_step {t : Token} {part : StringPart} {k : Nat} (ht : t ≠ .eof) {p r : Parser}
    {e : ParseError} (hp : p.current = t) (ho : p.options = o)
    (h : (discard >>= fun _ ↦ moreParts .strEnd .stringPart k >>= fun others ↦
      pure (part :: others)) p = .error e r) (he : e.Misplaced)
    (ih : ∀ {p₁ r₁ : Parser}, p₁.options = o → moreParts .strEnd .stringPart k p₁ = .error e r₁ →
      FailsAt o (LoopErrs (moreParts .strEnd .stringPart)) (fun us ↦ ∃ ps, Phrase.Parts us ps) p₁ e)
    (hpart : ∀ {us ps}, Phrase.Parts us ps → Phrase.Parts (t :: us) (part :: ps))
    (hrun : ∀ (m : Nat) {p' : Parser}, p'.current = t →
      moreParts .strEnd .stringPart (m + 1) p' =
        (discard >>= fun _ ↦ moreParts .strEnd .stringPart m >>= fun others ↦
          pure (part :: others)) p') :
    FailsAt o (LoopErrs (moreParts .strEnd .stringPart)) (fun us ↦ ∃ ps, Phrase.Parts us ps)
      p e := by
  obtain h | ⟨⟨⟩, p₁, h₁, h⟩ := bind_eq_error_iff.1 h
  · exact absurd he (not_misplaced_of_discard h)
  have hm₁ : Moves p [t] p₁ := .one hp ht (discard_eq_ok_iff.1 h₁)
  refine .step hm₁ (ih (hm₁.options_eq.trans ho) (bind_pure_eq_error_iff.1 h)) ?_
    fun _ hm' _ _ herr m hlen ↦ ?_
  · rintro us ⟨ps, hps⟩
    exact .of_nil ⟨_, hpart hps⟩
  · obtain ⟨m, rfl⟩ := Nat.exists_eq_succ_of_ne_zero (Nat.ne_of_gt (Nat.zero_lt_of_lt hlen))
    obtain ⟨hp', -, q₁, ha', hm'⟩ := hm'.uncons
    obtain rfl := hm'.eq_of_nil
    obtain ⟨e', r', herr⟩ := herr m (Nat.lt_of_succ_lt_succ hlen)
    refine ⟨e', r', (hrun m hp').trans ?_⟩
    exact (bind_of_ok (discard_of_advance ha') _).trans (bind_of_error herr _)

/-- A failure in a reference of a string, or behind it. -/
theorem moreParts_step_reference {k : Nat} {p r : Parser} {e : ParseError}
    (hp : p.current = .varBegin) (ho : p.options = o)
    (h : (discard >>= fun _ ↦ variableBody >>= fun ref ↦
      moreParts .strEnd .stringPart k >>= fun others ↦
        pure (StringPart.variable ref :: others)) p = .error e r) (he : e.Misplaced)
    (ih : ∀ {p₁ r₁ : Parser}, p₁.options = o → moreParts .strEnd .stringPart k p₁ = .error e r₁ →
      FailsAt o (LoopErrs (moreParts .strEnd .stringPart)) (fun us ↦ ∃ ps, Phrase.Parts us ps)
        p₁ e) :
    FailsAt o (LoopErrs (moreParts .strEnd .stringPart)) (fun us ↦ ∃ ps, Phrase.Parts us ps)
      p e := by
  have hrun (m : Nat) {p' : Parser} (hp' : p'.current = .varBegin) :
      moreParts .strEnd .stringPart (m + 1) p' = (discard >>= fun _ ↦ variableBody >>= fun ref ↦
        moreParts .strEnd .stringPart m >>= fun others ↦
          pure (StringPart.variable ref :: others)) p' := by
    rw [moreParts, peek_bind, hp']
  obtain h | ⟨⟨⟩, p₁, h₁, h⟩ := bind_eq_error_iff.1 h
  · exact absurd he (not_misplaced_of_discard h)
  have hm₁ : Moves p [.varBegin] p₁ := .one hp (by decide) (discard_eq_ok_iff.1 h₁)
  have ho₁ : p₁.options = o := hm₁.options_eq.trans ho
  obtain h | ⟨ref, p₂, h₂, h⟩ := bind_eq_error_iff.1 h
  · refine .step hm₁ (variableBody_fails ho₁ h he) ?_ fun _ hm' _ _ herr m hlen ↦ ?_
    · rintro us ⟨ref, href⟩
      have hps := Phrase.Parts.reference href .nil
      rw [List.append_nil] at hps
      exact .of_nil ⟨_, hps⟩
    · obtain ⟨e', r', herr⟩ := herr
      obtain ⟨m, rfl⟩ := Nat.exists_eq_succ_of_ne_zero (Nat.ne_of_gt (Nat.zero_lt_of_lt hlen))
      obtain ⟨hp', -, q₁, ha', hm'⟩ := hm'.uncons
      obtain rfl := hm'.eq_of_nil
      refine ⟨e', r', (hrun m hp').trans ?_⟩
      exact (bind_of_ok (discard_of_advance ha') _).trans (bind_of_error herr _)
  obtain ⟨us, hm₂, href⟩ := variableBody_ok h₂
  have hm : Moves p (.varBegin :: us) p₂ := hm₁.trans hm₂
  refine .step hm (ih (hm.options_eq.trans ho) (bind_pure_eq_error_iff.1 h)) ?_
    fun _ hm' _ _ herr m hlen ↦ ?_
  · rintro vs ⟨ps, hps⟩
    exact .of_nil ⟨_, .reference href hps⟩
  · obtain ⟨m, rfl⟩ := Nat.exists_eq_succ_of_ne_zero (Nat.ne_of_gt (Nat.zero_lt_of_lt hlen))
    obtain ⟨hp', -, q₁, ha', hm'⟩ := hm'.uncons
    obtain ⟨e', r', herr⟩ := herr m (by
      rw [List.length_append, List.length_cons] at hlen
      omega)
    refine ⟨e', r', (hrun m hp').trans ?_⟩
    refine (bind_of_ok (discard_of_advance ha') _).trans ?_
    exact (bind_of_ok (variableBody_eq_ok href hm') _).trans (bind_of_error herr _)

/-- The parts of a string fail at the first token that is none. -/
theorem moreParts_fails {k : Nat} : ∀ {p r : Parser} {e : ParseError}, p.options = o →
    moreParts .strEnd .stringPart k p = .error e r → e.Misplaced →
    FailsAt o (LoopErrs (moreParts .strEnd .stringPart)) (fun us ↦ ∃ ps, Phrase.Parts us ps)
      p e := by
  induction k with
  | zero => intro p r e _ h; cases h
  | succ k ih =>
    intro p r e ho h he
    rw [moreParts] at h
    obtain ⟨m, hm, h⟩ := of_peek_bind h
    split at hm <;> subst hm
    case h_1 text hp =>
      refine moreParts_step (by simp) hp ho h he (fun ho₁ h ↦ ih ho₁ h he) (.text text)
        fun m _ hp' ↦ ?_
      rw [moreParts, peek_bind, hp']
    case h_2 j hp =>
      refine moreParts_step (by simp) hp ho h he (fun ho₁ h ↦ ih ho₁ h he) (.backref j)
        fun m _ hp' ↦ ?_
      rw [moreParts, peek_bind, hp']
    case h_3 hp => exact moreParts_step_reference hp ho h he fun ho₁ h ↦ ih ho₁ h he
    case h_4 htext hback hvar =>
      by_cases hp : p.current = .strEnd
      · rw [if_pos (by simpa using hp)] at h
        cases h
      rw [if_neg (by simpa using hp)] at h
      obtain ⟨rfl, -⟩ := EStateM.Result.error.inj h
      refine .here rfl (.of_nil ⟨_, .nil⟩) fun _ hp' m hlen ↦ ?_
      obtain ⟨m, rfl⟩ := Nat.exists_eq_succ_of_ne_zero (Nat.ne_of_gt (Nat.zero_lt_of_lt hlen))
      rw [moreParts, peek_bind, hp']
      cases hc : p.current with
      | strText text => exact absurd hc (htext text)
      | backref j => exact absurd hc (hback j)
      | varBegin => exact absurd hc hvar
      | strEnd => exact absurd hc hp
      | _ => exact ⟨_, _, rfl⟩

/-- A string fails at the first token that is not a part of it. -/
theorem stringBody_fails {p r : Parser} {e : ParseError} (ho : p.options = o)
    (h : stringBody p = .error e r) (he : e.Misplaced) :
    FailsAt o (Errs stringBody)
      (fun us ↦ ∃ vs ps, us = vs ++ [.strEnd] ∧ Phrase.Parts vs ps) p e := by
  rw [stringBody, get_bind] at h
  obtain h | ⟨ps, p₁, h₁, h⟩ := bind_eq_error_iff.1 h
  · refine .step (.stay p) (moreParts_fails ho h he) ?_ fun _ hm _ hr' herr ↦ ?_
    · rintro us ⟨ps, hps⟩
      exact .of_one .strEnd ⟨us, ps, rfl, hps⟩
    · obtain rfl := hm.eq_of_nil
      obtain ⟨e', r', herr⟩ := herr _ hr'.length_lt_fuel
      refine ⟨e', r', ?_⟩
      rw [stringBody, get_bind, bind_of_error herr]
  · obtain h | ⟨⟨⟩, p₂, h₂, h⟩ := bind_eq_error_iff.1 h
    · exact absurd he (not_misplaced_of_discard h)
    · cases h

/-- Where a regex literal must stand, every other token is misplaced. -/
theorem regexLiteral_fails {p r : Parser} {e : ParseError} (h : regexLiteral p = .error e r)
    (he : e.Misplaced) :
    (∀ pattern flag, p.current ≠ .regex pattern flag) ∧
      FailsAt o (Errs regexLiteral) (fun us ↦ ∃ t r, us = [t] ∧ Phrase.Usable o t r) p e := by
  obtain ⟨m, hm, h⟩ := of_get_bind h
  split at hm <;> subst hm
  case h_1 pattern flag hp =>
    by_cases hc : p.options.engine.compiles pattern (flag || p.options.ignoreCase) = true
    · rw [if_pos hc] at h
      obtain h | ⟨⟨⟩, p₁, h₁, h⟩ := bind_eq_error_iff.1 h
      · exact absurd he (not_misplaced_of_advance h)
      · cases h
    · rw [if_neg hc] at h
      obtain ⟨rfl, -⟩ := EStateM.Result.error.inj h
      cases he.1
  case h_2 hp =>
    obtain ⟨rfl, -⟩ := EStateM.Result.error.inj h
    refine ⟨hp, .here rfl (.of_one .regex ⟨_, _, rfl, Phrase.usable_empty o⟩) fun _ hp' ↦ ?_⟩
    rw [Errs, regexLiteral, get_bind, hp']
    cases hc : p.current with
    | regex pattern flag => exact absurd hc (hp pattern flag)
    | _ => exact ⟨_, _, rfl⟩

end Parser

end RequestCondition

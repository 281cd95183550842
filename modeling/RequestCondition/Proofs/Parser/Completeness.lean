import RequestCondition.Proofs.Parser.Soundness

/-!
# Phrases are read

Where a phrase stands in front of a parser, with a token behind it that ends the phrase, the parser
succeeds: it returns the tree of the phrase and looks at that token.  `Parser.Accepts` is this
statement about one parser and one kind of phrase, the converse of `Parser.Reads`, and
`level_accepts` has it for the whole grammar.

Since a parser is a function, it follows that two phrases in front of the same parser are the same
phrase.

The hypothesis about the token behind the phrase cannot be left out.  `a` is an operand and so is
`a(b)`, and of a parser in front of the second it is not true that it reads the first.  What ends a
phrase is what soundness says of it (`WordEnds`, `ConcatEnds` and so on), so the two halves meet.

* **Choices.**  A parser decides by the token it looks at, and a phrase is known by its rule.  The
  start of a phrase (`Phrase.Operand.starts`) is what takes one to the other.
* **Ends.**  Inside a phrase every part is ended by the token behind it: an operand by a point, a
  list by the brace that closes it, a condition by the parenthesis.  The lemmas `ConcatEnds.of_ne`,
  `Closes.ends` and `DisjunctionEnds.of_rparen` say so.
* **Loops.**  Rules are recursive to the left, and loops go to the right.  `Phrase.Run` is the
  phrase in the order of the loop, and the induction is on it.
* **Constructs that nest.**  A phrase for `n + 1` has phrases for `n` inside, so there is a level
  left for the parser to go down to, and the limit is not met.
-/

set_option autoImplicit false

namespace RequestCondition

namespace Parser

variable {α : Type} {o : ParseOptions} {n : Nat}

/-- Where a phrase of the kind `D` is in front of `f`, and is ended by what follows it, `f` returns
its tree and stops behind it. -/
def Accepts (o : ParseOptions) (f : ParserM α) (D : List Token → α → Prop)
    (ends : Option Token → Token → Prop) : Prop :=
  ∀ ⦃p q : Parser⦄ ⦃ts : List Token⦄ ⦃a : α⦄, p.options = o → D ts a → Moves p ts q →
    ends ts.getLast? q.current → f p = .ok a q

/-! ## Loops

As for soundness, a loop is dealt with for any operator and any kind of item.  The bound on its
rounds is large enough, since every item has a token. -/

/-- The loop goes on as long as there are items in the run, and stops at a token that is no
operator. -/
theorem moreOperands_accepts {op : Token} {join : α → α → α} {item : ParserM α}
    {I : List Token → α → Prop} {ends : Option Token → Token → Prop}
    (hitem : Accepts o item I ends) (hI : ∀ {us b}, I us b → us ≠ [])
    (hop : ∀ {us b}, I us b → ends us.getLast? op) {left a : α} {vs : List Token}
    (h : Phrase.Run op join I left vs a) : ∀ {p q : Parser} {n : Nat}, p.options = o →
      Moves p vs q → (vs ≠ [] → ends vs.getLast? q.current) → q.current ≠ op → vs.length < n →
      moreOperands (· == op) join item n left p = .ok a q := by
  induction h with
  | done a =>
    intro p q n ho hm _ hq hn
    obtain ⟨n, rfl⟩ := Nat.exists_eq_succ_of_ne_zero (Nat.ne_of_gt hn)
    obtain rfl := hm.eq_of_nil
    rw [moreOperands, check_bind, if_neg (by simpa using hq)]
    rfl
  | @more us ts a b c hb h ih =>
    intro p q n ho hm hends hq hn
    obtain ⟨n, rfl⟩ := Nat.exists_eq_succ_of_ne_zero (Nat.ne_of_gt (Nat.zero_lt_of_lt hn))
    obtain ⟨hp, hop', p₁, h₁, hm⟩ := hm.uncons
    obtain ⟨p₂, hm₁, hm₂⟩ := hm.split
    have ho₁ : p₁.options = o := (Moves.one hp hop' h₁).options_eq.trans ho
    have hends₂ : ends us.getLast? p₂.current := by
      cases h with
      | done _ =>
        have := hends (by simp)
        obtain rfl := hm₂.eq_of_nil
        rwa [List.append_nil, List.getLast?_cons_of_ne_nil (hI hb)] at this
      | more _ _ =>
        rw [hm₂.uncons.1]
        exact hop hb
    rw [moreOperands, check_bind, if_pos (by simpa using hp), bind_of_ok h₁,
      bind_of_ok (hitem ho₁ hb hm₁ hends₂)]
    refine ih (hm₁.options_eq.trans ho₁) hm₂ (fun hts ↦ ?_) hq ?_
    · have := hends (by simp)
      rwa [List.getLast?_append_of_ne_nil _ hts] at this
    · rw [List.length_append, List.length_cons] at hn
      omega

/-- A loop over the operands of an operator reads every phrase that is a first item and a run. -/
theorem chain_accepts {op : Token} {join : α → α → α} {item : ParserM α}
    {I C : List Token → α → Prop} {ends : Option Token → Token → Prop}
    (hitem : Accepts o item I ends) (hI : ∀ {us b}, I us b → us ≠ [])
    (hop : ∀ {us b}, I us b → ends us.getLast? op)
    (hrun : ∀ {ts a}, C ts a → ∃ us b vs, I us b ∧ ts = us ++ vs ∧ Phrase.Run op join I b vs a) :
    Accepts o (chain (· == op) join item) C fun last next ↦ ends last next ∧ next ≠ op := by
  intro p q ts a ho ha hm hends
  obtain ⟨us, b, vs, hb, rfl, hr⟩ := hrun ha
  obtain ⟨p₁, hm₁, hm₂⟩ := hm.split
  have ho₁ : p₁.options = o := hm₁.options_eq.trans ho
  cases hr with
  | done _ =>
    obtain rfl := hm₂.eq_of_nil
    rw [List.append_nil] at hends
    rw [chain, bind_of_ok (hitem ho hb hm₁ hends.1), check_bind, if_neg (by simpa using hends.2)]
    rfl
  | @more us ts _ c _ hc hr =>
    have hp₁ : p₁.current = op := hm₂.uncons.1
    rw [chain, bind_of_ok (hitem ho hb hm₁ (hp₁ ▸ hop hb)), check_bind,
      if_pos (by simpa using hp₁), get_bind]
    refine moreOperands_accepts hitem hI hop (.more hc hr) ho₁ hm₂ (fun h ↦ ?_) hends.2
      hm₂.length_lt_fuel
    have := hends.1
    rwa [List.getLast?_append_of_ne_nil _ h] at this

theorem ConcatEnds.of_ne {last : Option Token} {next : Token} (h : next ≠ .lparen)
    (h' : next ≠ .dot) : ConcatEnds last next :=
  ⟨fun _ ↦ h, h'⟩

/-- A token that closes a list of items: no item starts with it or goes on with it. -/
structure Closes (close : Token) : Prop where
  starts : Phrase.startsOperand close = false
  ne_dot : close ≠ .dot
  ne_comma : close ≠ .comma

namespace Closes

variable {close : Token}

theorem rparen : Closes .rparen := ⟨rfl, by decide, by decide⟩

theorem rbrace : Closes .rbrace := ⟨rfl, by decide, by decide⟩

theorem ends (h : Closes close) (last : Option Token) : ConcatEnds last close :=
  .of_ne (by rintro rfl; exact absurd h.starts (by decide)) h.ne_dot

theorem current_ne (h : Closes close) {p q : Parser} {ts : List Token} {e : Expr}
    (he : Phrase.Concat o n ts e) (hm : Moves p ts q) : p.current ≠ close := by
  obtain ⟨t, us, rfl, ht⟩ := he.starts
  rintro rfl
  rw [hm.uncons.1] at h
  exact absurd h.starts (by simp [ht])

end Closes

/-- The items of a list are read up to the token that closes it.  A comma may stand behind the last
item, so after each comma the loop looks for the end again. -/
theorem moreItems_accepts {close : Token} (hclose : Closes close) {item : ParserM Expr}
    (hitem : Accepts o item (Phrase.Concat o n) ConcatEnds) :
    ∀ {k : Nat} {p q : Parser} {ts : List Token} {es : List Expr}, Phrase.Items o n ts es →
      p.options = o → Moves p ts q → q.current = close → ts.length < k →
      moreItems close item k p = .ok es q
  | 0, _, _, _, _, _, _, _, _, hk => absurd hk (Nat.not_lt_zero _)
  | k + 1, p, q, _, _, .nil, ho, hm, hq, _ => by
    obtain rfl := hm.eq_of_nil
    rw [moreItems, check_bind, if_pos (by simpa using hq)]
    rfl
  | k + 1, p, q, ts, _, .last h, ho, hm, hq, _ => by
    have hp : p.current ≠ close := hclose.current_ne h hm
    rw [moreItems, check_bind, if_neg (by simpa using hp),
      bind_of_ok (hitem ho h hm (hq ▸ hclose.ends _)), check_bind, if_pos (by simpa using hq)]
    rfl
  | k + 1, p, q, _, _, @Phrase.Items.cons _ _ _ us _ _ h h', ho, hm, hq, hk => by
    obtain ⟨p₁, hm₁, hm₂⟩ := hm.split
    obtain ⟨hp₁, -, p₂, h₂, hm₃⟩ := hm₂.uncons
    have hp : p.current ≠ close := hclose.current_ne h hm₁
    have hne : p₁.current ≠ close := by
      rw [hp₁]
      exact hclose.ne_comma.symm
    have ho₂ : p₂.options = o :=
      ((hm₁.snoc hp₁ (by decide) h₂).options_eq).trans ho
    have hlen : us.length < k := by
      rw [List.length_append, List.length_cons] at hk
      omega
    rw [moreItems, check_bind, if_neg (by simpa using hp),
      bind_of_ok (hitem ho h hm₁ (hp₁ ▸ .of_ne (by decide) (by decide))), check_bind,
      if_neg (by simpa using hne), bind_of_ok (expect_of_advance hp₁ h₂),
      bind_of_ok (moreItems_accepts hclose hitem h' ho₂ hm₃ hq hlen)]
    rfl

/-- A list is read together with the token that closes it. -/
theorem items_eq_ok {close : Token} (hclose : Closes close) {item : ParserM Expr}
    (hitem : Accepts o item (Phrase.Concat o n) ConcatEnds) {p q : Parser} {ts : List Token}
    {es : List Expr} (ho : p.options = o) (h : Phrase.Items o n ts es)
    (hm : Moves p (ts ++ [close]) q) : items close item p = .ok es q := by
  obtain ⟨p₁, hm₁, hm₂⟩ := hm.split
  obtain ⟨hp₁, -, q', h₂, hm₃⟩ := hm₂.uncons
  obtain rfl := hm₃.eq_of_nil
  rw [items, get_bind, bind_of_ok (moreItems_accepts hclose hitem h ho hm₁ hp₁ hm₁.length_lt_fuel),
    bind_of_ok (expect_of_advance hp₁ h₂)]
  rfl

/-! ## References, strings and regex literals

Here the tokens are given, and so each step of the reader is one move. -/

/-- References are read. -/
theorem variableBody_eq_ok {p q : Parser} {ts : List Token} {ref : VarRef}
    (h : Phrase.Reference ts ref) (hm : Moves p ts q) : variableBody p = .ok ref q := by
  cases h with
  | plain name =>
    obtain ⟨hp, -, p₁, h₁, hm⟩ := hm.uncons
    obtain ⟨hp₁, -, p₂, h₂, hm⟩ := hm.uncons
    obtain rfl := hm.eq_of_nil
    rw [variableBody, peek_bind, hp]
    refine (bind_of_ok (discard_of_advance h₁) _).trans ?_
    rw [peek_bind, hp₁]
    exact bind_of_ok (expect_of_advance hp₁ h₂) _
  | argument name arg =>
    obtain ⟨hp, -, p₁, h₁, hm⟩ := hm.uncons
    obtain ⟨hp₁, -, p₂, h₂, hm⟩ := hm.uncons
    obtain ⟨hp₂, -, p₃, h₃, hm⟩ := hm.uncons
    obtain rfl := hm.eq_of_nil
    rw [variableBody, peek_bind, hp]
    refine (bind_of_ok (discard_of_advance h₁) _).trans ?_
    rw [peek_bind, hp₁]
    refine (bind_of_ok h₂ _).trans ?_
    exact bind_of_ok (expect_of_advance hp₂ h₃) _

/-- The parts of a string are read up to the token that closes it. -/
theorem moreParts_eq_ok {close : Token} {expected : Expectation}
    (hclose : close = .strEnd ∨ close = .eof) {ts : List Token} {ps : List StringPart}
    (h : Phrase.Parts ts ps) : ∀ {p q : Parser} {k : Nat}, Moves p ts q → q.current = close →
      ts.length < k → moreParts close expected k p = .ok ps q := by
  induction h with
  | nil =>
    intro p q k hm hq hk
    obtain ⟨k, rfl⟩ := Nat.exists_eq_succ_of_ne_zero (Nat.ne_of_gt hk)
    obtain rfl := hm.eq_of_nil
    rw [moreParts, peek_bind, hq]
    rcases hclose with rfl | rfl <;> rfl
  | @text ts ps s h ih =>
    intro p q k hm hq hk
    obtain ⟨k, rfl⟩ := Nat.exists_eq_succ_of_ne_zero (Nat.ne_of_gt (Nat.zero_lt_of_lt hk))
    obtain ⟨hp, -, p₁, h₁, hm⟩ := hm.uncons
    rw [moreParts, peek_bind, hp]
    refine (bind_of_ok (discard_of_advance h₁) _).trans ?_
    exact bind_of_ok (ih hm hq (Nat.lt_of_succ_lt_succ hk)) _
  | @backref ts ps j h ih =>
    intro p q k hm hq hk
    obtain ⟨k, rfl⟩ := Nat.exists_eq_succ_of_ne_zero (Nat.ne_of_gt (Nat.zero_lt_of_lt hk))
    obtain ⟨hp, -, p₁, h₁, hm⟩ := hm.uncons
    rw [moreParts, peek_bind, hp]
    refine (bind_of_ok (discard_of_advance h₁) _).trans ?_
    exact bind_of_ok (ih hm hq (Nat.lt_of_succ_lt_succ hk)) _
  | @reference us ts ref ps hr h ih =>
    intro p q k hm hq hk
    obtain ⟨k, rfl⟩ := Nat.exists_eq_succ_of_ne_zero (Nat.ne_of_gt (Nat.zero_lt_of_lt hk))
    obtain ⟨hp, -, p₁, h₁, hm⟩ := hm.uncons
    obtain ⟨p₂, hm₂, hm⟩ := hm.split
    rw [List.length_append, List.length_cons] at hk
    rw [moreParts, peek_bind, hp]
    refine (bind_of_ok (discard_of_advance h₁) _).trans ?_
    refine (bind_of_ok (variableBody_eq_ok hr hm₂) _).trans ?_
    exact bind_of_ok (ih hm hq (by omega)) _

theorem stringBody_eq_ok {p q : Parser} {ts : List Token} {ps : List StringPart}
    (h : Phrase.Parts ts ps) (hm : Moves p (ts ++ [.strEnd]) q) :
    stringBody p = .ok (.string ps) q := by
  obtain ⟨p₁, hm₁, hm₂⟩ := hm.split
  obtain ⟨hp₁, -, q', h₂, hm₃⟩ := hm₂.uncons
  obtain rfl := hm₃.eq_of_nil
  rw [stringBody, get_bind,
    bind_of_ok (moreParts_eq_ok (.inl rfl) h hm₁ hp₁ hm₁.length_lt_fuel),
    bind_of_ok (discard_of_advance h₂)]
  rfl

/-- A regex token that can be used is read. -/
theorem regexLiteral_eq_ok {p q : Parser} {t : Token} {r : RegexLiteral} (ho : p.options = o)
    (h : Phrase.Usable o t r) (hm : Moves p [t] q) : regexLiteral p = .ok r q := by
  cases h with
  | regex hc =>
    obtain ⟨hp, -, p₁, h₁, hm⟩ := hm.uncons
    obtain rfl := hm.eq_of_nil
    rw [regexLiteral, get_bind, hp, ho]
    refine (congrFun (if_pos hc) p).trans ?_
    exact bind_of_ok h₁ _

/-! ## One level

The functions of the grammar in the same order as before, each with what ends its phrases. -/

/-- What a grammar for `n` owes to the one around it. -/
structure GrammarAccepts (o : ParseOptions) (g : Grammar) (n : Nat) : Prop where
  expression : Accepts o g.expression (Phrase.Disjunction o n) DisjunctionEnds
  negation : Accepts o g.negation (Phrase.Negation o n) ComparisonEnds
  concat : Accepts o g.concat (Phrase.Concat o n) ConcatEnds

/-- A construct that nests is read if its inside is. -/
theorem nested_below_eq_ok {m : Nat} {inside : Grammar → ParserM α} {p r : Parser} {a : α}
    (hr : r.depth = p.depth)
    (h : inside (level m) (p.withDepth (p.depth + 1)) = .ok a (r.withDepth (p.depth + 1))) :
    nested (below (m + 1)) inside p = .ok a r := by
  refine nested_eq_ok_iff.2 ⟨level m, _, rfl, h, ?_⟩
  rw [withDepth_depth, withDepth_withDepth, Nat.add_sub_cancel, ← hr, withDepth_self]

theorem DisjunctionEnds.of_rparen {last : Option Token} : DisjunctionEnds last .rparen :=
  ⟨⟨⟨.inr (.of_ne (by decide) (by decide)), rfl⟩, by decide⟩, by decide⟩

/-- A call is read, with a construct opened for its arguments. -/
theorem call_eq_ok {m : Nat} (hb : GrammarAccepts o (level m) m) (name : String) {p q : Parser}
    {us : List Token} {es : List Expr} (ho : p.options = o) (h : Phrase.Items o m us es)
    (hm : Moves p (.identifier name :: .lparen :: (us ++ [.rparen])) q) :
    operand (below (m + 1)) p = .ok (.call name es) q := by
  obtain ⟨hp, -, p₁, h₁, hm₁⟩ := hm.uncons
  have hd : q.depth = p₁.depth := hm₁.depth_eq
  obtain ⟨hp₁, -, p₂, h₂, hm₂⟩ := (hm₁.withDepth (p₁.depth + 1)).uncons
  have ho₂ : p₂.options = o := by
    rw [← hm₂.options_eq, withDepth_options, hm.options_eq, ho]
  rw [operand, peek_bind, hp]
  refine (bind_of_ok (discard_of_advance h₁) _).trans ?_
  rw [check_bind, if_pos (by simpa using hp₁)]
  refine nested_below_eq_ok hd ?_
  refine (bind_of_ok h₂ _).trans ?_
  exact bind_of_ok (items_eq_ok .rparen hb.concat ho₂ h hm₂) _

/-- A condition in parentheses is read, with a construct opened for them. -/
theorem group_eq_ok {m : Nat} (hb : GrammarAccepts o (level m) m) {p q : Parser} {us : List Token}
    {e : Expr} (ho : p.options = o) (h : Phrase.Disjunction o m us e)
    (hm : Moves p (.lparen :: (us ++ [.rparen])) q) : operand (below (m + 1)) p = .ok e q := by
  obtain ⟨hp, -, p₁, h₁, hm₁⟩ := (hm.withDepth (p.depth + 1)).uncons
  have ho₁ : p₁.options = o := by
    rw [← hm₁.options_eq, withDepth_options, hm.options_eq, ho]
  obtain ⟨p₂, hm₂, hm₃⟩ := hm₁.split
  obtain ⟨hp₂, -, q', h₃, hm₄⟩ := hm₃.uncons
  obtain rfl := hm₄.eq_of_nil
  have he := hb.expression ho₁ h hm₂ (hp₂ ▸ .of_rparen)
  rw [operand, peek_bind, ← withDepth_current p (p.depth + 1), hp]
  refine (clear_bind _ p).trans (nested_below_eq_ok hm.depth_eq ?_)
  refine (bind_of_ok (advance_cleared_eq_ok_iff.2 h₁) _).trans ?_
  refine (bind_of_ok he _).trans ?_
  exact bind_of_ok (expect_of_advance hp₂ h₃) _

/-- **Every operand is read** where no parenthesis follows a word.  The first token tells which kind
it is.  Constructs that nest have their inside read with one more construct open, and there is a
level for it. -/
theorem operand_accepts (hb : ∀ m, n = m + 1 → GrammarAccepts o (level m) m) :
    Accepts o (operand (below n)) (Phrase.Operand o n) WordEnds := by
  intro p q ts a ho h hm hends
  cases h with
  | boolean b =>
    obtain ⟨hp, -, p₁, h₁, hm⟩ := hm.uncons
    obtain rfl := hm.eq_of_nil
    rw [operand, peek_bind, hp]
    exact bind_of_ok (discard_of_advance h₁) _
  | number k =>
    obtain ⟨hp, -, p₁, h₁, hm⟩ := hm.uncons
    obtain rfl := hm.eq_of_nil
    rw [operand, peek_bind, hp]
    exact bind_of_ok (discard_of_advance h₁) _
  | string h =>
    obtain ⟨hp, -, p₁, h₁, hm⟩ := hm.uncons
    rw [operand, peek_bind, hp]
    refine (bind_of_ok (discard_of_advance h₁) _).trans ?_
    exact stringBody_eq_ok h hm
  | reference h =>
    obtain ⟨hp, -, p₁, h₁, hm⟩ := hm.uncons
    rw [operand, peek_bind, hp]
    refine (bind_of_ok (discard_of_advance h₁) _).trans ?_
    exact bind_of_ok (variableBody_eq_ok h hm) _
  | backref k =>
    obtain ⟨hp, -, p₁, h₁, hm⟩ := hm.uncons
    obtain rfl := hm.eq_of_nil
    rw [operand, peek_bind, hp]
    exact bind_of_ok (discard_of_advance h₁) _
  | word name =>
    obtain ⟨hp, -, p₁, h₁, hm⟩ := hm.uncons
    obtain rfl := hm.eq_of_nil
    have hq : q.current ≠ .lparen := hends ⟨name, rfl⟩
    rw [operand, peek_bind, hp]
    refine (bind_of_ok (discard_of_advance h₁) _).trans ?_
    rw [check_bind, if_neg (by simpa using hq)]
    rfl
  | call name h => exact call_eq_ok (hb _ rfl) name ho h hm
  | group h => exact group_eq_ok (hb _ rfl) ho h hm

theorem single_accepts (hb : ∀ m, n = m + 1 → GrammarAccepts o (level m) m) :
    Accepts o ((operand (below n)).map fun e ↦ [e]) (Phrase.Single o n) WordEnds := by
  rintro p q ts es ho ⟨e, rfl, he⟩ hm hends
  exact map_eq_ok_iff.2 ⟨e, operand_accepts hb ho he hm hends, rfl⟩

/-- **Every concatenation is read** where no point follows it. -/
theorem concatenation_accepts (hb : ∀ m, n = m + 1 → GrammarAccepts o (level m) m) :
    Accepts o (concatenation (below n)) (Phrase.Concat o n) ConcatEnds := by
  have hchain : Accepts o (chain (· == .dot) (· ++ ·) ((operand (below n)).map fun e ↦ [e]))
      (Phrase.Operands o n) ConcatEnds := by
    refine chain_accepts (single_accepts hb) ?_ ?_ fun h ↦ h.run
    · rintro us es ⟨e, rfl, he⟩
      exact he.ne_nil
    · rintro us es - -
      decide
  intro p q ts e ho h hm hends
  obtain ⟨es, hes, rfl⟩ := Phrase.concat_iff.1 h
  rw [concatenation_eq]
  exact map_eq_ok_iff.2 ⟨es, hchain ho hes hm hends, rfl⟩

/-- A test with an operand at its end is ended by what ends the operand. -/
theorem TestEnds.concat {ts : List Token} {e : Expr} {next : Token}
    (hends : TestEnds ts.getLast? next) (h : Phrase.Concat o n ts e) :
    ConcatEnds ts.getLast? next :=
  hends.resolve_left h.not_endsClosed

/-- What starts with an operand is an operand and a relation behind it. -/
theorem bareComparison_of_concat (hb : ∀ m, n = m + 1 → GrammarAccepts o (level m) m)
    {p q : Parser} {ts : List Token} {e : Expr} (ho : p.options = o) (h : Phrase.Concat o n ts e)
    (hm : Moves p ts q) (hends : ConcatEnds ts.getLast? q.current) :
    bareComparison (below n) p = relation (below n) e q := by
  refine .trans ?_ (bind_of_ok (concatenation_accepts hb ho h hm hends) (relation (below n)))
  obtain ⟨t, us, rfl, ht⟩ := h.starts
  rw [bareComparison, peek_bind, hm.uncons.1]
  cases t with
  | unaryOp op => cases ht
  | _ => rfl

/-- A token that relates the operand in front to something is moved over. -/
theorem bareComparison_of_relates (hb : ∀ m, n = m + 1 → GrammarAccepts o (level m) m)
    {p q : Parser} {t : Token} {ts us : List Token} {e : Expr} (ho : p.options = o)
    (h : Phrase.Concat o n ts e) (hends : ConcatEnds ts.getLast? t)
    (hm : Moves p (ts ++ t :: us) q) :
    ∃ p₁ p₂, bareComparison (below n) p = relation (below n) e p₁ ∧ p₁.current = t ∧
      advance p₁ = .ok () p₂ ∧ p₂.options = o ∧ Moves p₂ us q := by
  obtain ⟨p₁, hm₁, hm₂⟩ := hm.split
  obtain ⟨hp₁, -, p₂, h₂, hm₃⟩ := hm₂.uncons
  have ho₂ : p₂.options = o := by rw [← hm₃.options_eq, hm.options_eq, ho]
  exact ⟨p₁, p₂, bareComparison_of_concat hb ho h hm₁ (hp₁ ▸ hends), hp₁, h₂, ho₂, hm₃⟩

/-- Behind `-R` a regex literal is searched for in the address of the client. -/
theorem clientTest_of_regex {p q : Parser} {t : Token} {r : RegexLiteral} (ho : p.options = o)
    (h : Phrase.Usable o t r) (hm : Moves p [t] q) :
    clientTest (below n) p = .ok (.isMatch false clientAddress r) q := by
  have hr : regexLiteral p = .ok r q := regexLiteral_eq_ok ho h hm
  obtain ⟨pattern, flag, ht⟩ : ∃ pattern flag, p.current = .regex pattern flag := by
    cases h
    exact ⟨_, _, hm.uncons.1⟩
  rw [clientTest, peek_bind, ht]
  exact bind_of_ok hr _

/-- Anything else behind `-R` is the network that the address is to be in. -/
theorem clientTest_of_concat (hb : ∀ m, n = m + 1 → GrammarAccepts o (level m) m) {p q : Parser}
    {ts : List Token} {e : Expr} (ho : p.options = o) (h : Phrase.Concat o n ts e)
    (hm : Moves p ts q) (hends : ConcatEnds ts.getLast? q.current) :
    clientTest (below n) p = .ok (.binaryTest "-ipmatch" clientAddress e) q := by
  have he := concatenation_accepts hb ho h hm hends
  obtain ⟨t, us, rfl, ht⟩ := h.starts
  rw [clientTest, peek_bind, hm.uncons.1]
  cases t with
  | regex pattern flag => cases ht
  | _ => exact bind_of_ok he _

/-- Tests are read whatever follows them.  A test either begins with its operator, or it begins with
an operand, and then the relation is read behind that. -/
theorem bareComparison_accepts_test (hb : ∀ m, n = m + 1 → GrammarAccepts o (level m) m) :
    Accepts o (bareComparison (below n)) (Phrase.Test o n) TestEnds := by
  intro p q ts a ho h hm hends
  cases h with
  | clientMatch h =>
    obtain ⟨hp, -, p₁, h₁, hm₁⟩ := hm.uncons
    have ho₁ : p₁.options = o := by rw [← hm₁.options_eq, hm.options_eq, ho]
    rw [bareComparison, peek_bind, hp]
    exact (bind_of_ok h₁ _).trans (clientTest_of_regex ho₁ h hm₁)
  | clientBlock h =>
    obtain ⟨hp, -, p₁, h₁, hm₁⟩ := hm.uncons
    have ho₁ : p₁.options = o := by rw [← hm₁.options_eq, hm.options_eq, ho]
    rw [List.getLast?_cons_of_ne_nil h.ne_nil] at hends
    rw [bareComparison, peek_bind, hp]
    exact (bind_of_ok h₁ _).trans (clientTest_of_concat hb ho₁ h hm₁ (hends.concat h))
  | unaryTest hop h =>
    obtain ⟨hp, -, p₁, h₁, hm₁⟩ := hm.uncons
    have ho₁ : p₁.options = o := by rw [← hm₁.options_eq, hm.options_eq, ho]
    rw [List.getLast?_cons_of_ne_nil h.ne_nil] at hends
    have he := concatenation_accepts hb ho₁ h hm₁ (hends.concat h)
    rw [bareComparison, peek_bind, hp]
    refine (bind_of_ok h₁ _).trans ?_
    rw [if_neg hop, bind_of_ok he]
    rfl
  | compare op h h' =>
    obtain ⟨p₁, p₂, hp, hp₁, h₂, ho₂, hm₂⟩ :=
      bareComparison_of_relates hb ho h (.of_ne (by simp) (by simp)) hm
    rw [getLast?_append_cons _ _ h'.ne_nil] at hends
    rw [hp, relation, peek_bind, hp₁]
    refine (bind_of_ok h₂ _).trans ?_
    exact bind_of_ok (concatenation_accepts hb ho₂ h' hm₂ (hends.concat h')) _
  | isMatch h hr =>
    obtain ⟨p₁, p₂, hp, hp₁, h₂, ho₂, hm₂⟩ :=
      bareComparison_of_relates hb ho h (.of_ne (by simp) (by simp)) hm
    rw [hp, relation, peek_bind, hp₁]
    refine (bind_of_ok h₂ _).trans ?_
    exact bind_of_ok (regexLiteral_eq_ok ho₂ hr hm₂) _
  | isNoMatch h hr =>
    obtain ⟨p₁, p₂, hp, hp₁, h₂, ho₂, hm₂⟩ :=
      bareComparison_of_relates hb ho h (.of_ne (by simp) (by simp)) hm
    rw [hp, relation, peek_bind, hp₁]
    refine (bind_of_ok h₂ _).trans ?_
    exact bind_of_ok (regexLiteral_eq_ok ho₂ hr hm₂) _
  | isIn h h' =>
    rw [List.append_assoc] at hm
    obtain ⟨p₁, p₂, hp, hp₁, h₂, ho₂, hm₂⟩ :=
      bareComparison_of_relates hb ho h (.of_ne (by simp) (by simp)) hm
    obtain ⟨hp₂, -, p₃, h₃, hm₃⟩ := hm₂.uncons
    have ho₃ : p₃.options = o := by rw [← hm₃.options_eq, hm₂.options_eq, ho₂]
    rw [hp, relation, peek_bind, hp₁]
    refine (bind_of_ok h₂ _).trans ?_
    refine (bind_of_ok (expect_of_advance hp₂ h₃) _).trans ?_
    exact bind_of_ok (items_eq_ok .rbrace (concatenation_accepts hb) ho₃ h' hm₃) _
  | binaryTest op h h' =>
    obtain ⟨p₁, p₂, hp, hp₁, h₂, ho₂, hm₂⟩ :=
      bareComparison_of_relates hb ho h (.of_ne (by simp) (by simp)) hm
    rw [getLast?_append_cons _ _ h'.ne_nil] at hends
    rw [hp, relation, peek_bind, hp₁]
    refine (bind_of_ok h₂ _).trans ?_
    exact bind_of_ok (concatenation_accepts hb ho₂ h' hm₂ (hends.concat h')) _

theorem bareComparison_eq_ok (hb : ∀ m, n = m + 1 → GrammarAccepts o (level m) m) {p q : Parser}
    {ts : List Token} {a : Expr} (ho : p.options = o) (h : BareReads o n ts a q.current)
    (hm : Moves p ts q) : bareComparison (below n) p = .ok a q := by
  cases h with
  | concat h hends hrel =>
    rw [bareComparison_of_concat hb ho h hm hends, relation, peek_bind]
    cases hq : q.current <;> first | rfl | (rw [hq] at hrel; cases hrel)
  | test h hends => exact bareComparison_accepts_test hb ho h hm hends

/-- **Every comparison is read** where nothing follows that could go on with it. -/
theorem comparison_accepts (hb : ∀ m, n = m + 1 → GrammarAccepts o (level m) m) :
    Accepts o (comparison (below n)) (Phrase.Comparison o n) ComparisonEnds := by
  intro p q ts a ho h hm hends
  have hbare : BareReads o n ts a q.current := by
    cases h with
    | concat h => exact .concat h (hends.1.concat h) hends.2
    | test h => exact .test h hends.1
  rw [comparison_eq, bind_of_ok (bareComparison_eq_ok hb ho hbare hm), check_bind,
    if_neg (by simp [hends.2])]
  rfl

/-- **Every negation is read**, with a construct opened for each `!`.  What does not begin with `!`
is a comparison, since no operand begins so. -/
theorem negation_accepts (hb : ∀ m, n = m + 1 → GrammarAccepts o (level m) m) :
    Accepts o (negation (below n)) (Phrase.Negation o n) ComparisonEnds := by
  intro p q ts a ho h hm hends
  cases h with
  | comparison h =>
    have hp : p.current ≠ .not := by
      obtain ⟨t, us, rfl, ht⟩ := h.starts
      rw [hm.uncons.1]
      rintro rfl
      simp [Phrase.startsOperand] at ht
    rw [negation, check_bind, if_neg (by simpa using hp)]
    exact comparison_accepts hb ho h hm hends
  | not h =>
    rename_i m us e
    rw [List.getLast?_cons_of_ne_nil h.ne_nil] at hends
    obtain ⟨hp, -, p₁, h₁, hm₁⟩ := (hm.withDepth (p.depth + 1)).uncons
    have ho₁ : p₁.options = o := by
      rw [← hm₁.options_eq, withDepth_options, hm.options_eq, ho]
    rw [withDepth_current] at hp
    rw [negation, check_bind, if_pos (by simpa using hp)]
    refine nested_below_eq_ok hm.depth_eq ?_
    refine (bind_of_ok h₁ _).trans ?_
    exact bind_of_ok ((hb m rfl).negation ho₁ h hm₁ hends) _

theorem conjunction_accepts (hb : ∀ m, n = m + 1 → GrammarAccepts o (level m) m) :
    Accepts o (conjunction (below n)) (Phrase.Conjunction o n) ConjunctionEnds :=
  chain_accepts (negation_accepts hb) (fun h ↦ h.ne_nil)
    (fun _ ↦ ⟨.inr (.of_ne (by decide) (by decide)), rfl⟩) fun h ↦ h.run

theorem disjunction_accepts (hb : ∀ m, n = m + 1 → GrammarAccepts o (level m) m) :
    Accepts o (disjunction (below n)) (Phrase.Disjunction o n) DisjunctionEnds :=
  chain_accepts (conjunction_accepts hb) (fun h ↦ h.ne_nil)
    (fun _ ↦ ⟨⟨.inr (.of_ne (by decide) (by decide)), rfl⟩, by decide⟩) fun h ↦ h.run

/-- **Every phrase is read**, if the grammar may open as many constructs as it has open at once. -/
theorem level_accepts (n : Nat) : GrammarAccepts o (level n) n := by
  induction n with
  | zero =>
    have hb : ∀ m, 0 = m + 1 → GrammarAccepts o (level m) m := fun m hm ↦ absurd hm (by simp)
    rw [level_eq]
    exact ⟨disjunction_accepts hb, negation_accepts hb, concatenation_accepts hb⟩
  | succ n ih =>
    have hb : ∀ m, n + 1 = m + 1 → GrammarAccepts o (level m) m :=
      fun m hm ↦ Nat.succ.inj hm ▸ ih
    rw [level_eq]
    exact ⟨disjunction_accepts hb, negation_accepts hb, concatenation_accepts hb⟩

end Parser

end RequestCondition

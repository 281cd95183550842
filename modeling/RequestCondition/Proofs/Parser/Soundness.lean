import RequestCondition.Proofs.Parser.Phrase
import RequestCondition.Proofs.Parser.Steps

/-!
# What is read is a phrase

Where a parser succeeds, the tokens that it has moved over are a phrase with the tree that it
returns.  `Parser.Reads` is that statement about one parser and one kind of phrase, and every
function of the grammar gets its own; `disjunction_reads` is the last of them.

It also says that the phrase was not left too early: the token behind it could not have gone on with
it.  What could depends on the kind of phrase and on how the phrase ends, so it is a predicate on
the last token and the next one (`WordEnds`, `ConcatEnds`, `ComparisonEnds`).

The recursion is on the number of constructs that may still be opened: `GrammarReads` is what the
grammar with `n` levels below it owes to the one around it.

The ends of phrases come first, from the tightest to the loosest: each is the one before and one
more token that could have gone on.  There is one exception.  A test that ends in a regex literal or
in a list is left as it is by every token (`Phrase.EndsClosed`), since there is no operand at its
end that could grow.

* **Loops.**  A loop over the operands of an operator is dealt with once, for any operator and any
  kind of item (`chain_reads`).  Its invariant is that what has been read so far is a phrase of the
  kind that is being built.
* **Comparisons.**  A comparison is read in two steps, what it is and the look at what follows it.
  `bareComparison` is the first alone, and `comparison_eq` says that the two are all there is.
* **Levels.**  Every function is read for `below n`, which is no grammar at all if `n` is zero.  So
  a proof never has to ask whether a construct could be opened: that it was read says so.
-/

set_option autoImplicit false

namespace RequestCondition

namespace Parser

variable {α : Type} {o : ParseOptions}

/-! ## The ends of phrases

That nothing more could be read is not said of the parser but of two tokens.  So it can be asked of
a phrase that has been found in some other way. -/

/-- A word that parentheses follow is no operand but the name of a function. -/
def WordEnds (last : Option Token) (next : Token) : Prop :=
  (∃ name, last = some (.identifier name)) → next ≠ .lparen

/-- Whether `next` leaves a concatenation that ends in `last` as it is. -/
def ConcatEnds (last : Option Token) (next : Token) : Prop := WordEnds last next ∧ next ≠ .dot

/-- Whether `next` leaves a test that ends in `last` as it is. -/
def TestEnds (last : Option Token) (next : Token) : Prop :=
  Phrase.EndsClosed last ∨ ConcatEnds last next

/-- Whether `next` leaves a comparison that ends in `last` as it is. -/
def ComparisonEnds (last : Option Token) (next : Token) : Prop :=
  TestEnds last next ∧ isRelational next = false

def ConjunctionEnds (last : Option Token) (next : Token) : Prop :=
  ComparisonEnds last next ∧ next ≠ .and

def DisjunctionEnds (last : Option Token) (next : Token) : Prop :=
  ConjunctionEnds last next ∧ next ≠ .or

/-- Where `f` succeeds, it has moved over the tokens of a phrase of the kind `D` with the tree it
returns, and the token behind them ends such a phrase. -/
def Reads (o : ParseOptions) (f : ParserM α) (D : List Token → α → Prop)
    (ends : Option Token → Token → Prop) : Prop :=
  ∀ ⦃p q : Parser⦄ ⦃a : α⦄, p.options = o → f p = .ok a q →
    ∃ ts, Moves p ts q ∧ D ts a ∧ ends ts.getLast? q.current

theorem getLast?_append_cons (ts : List Token) (t : Token) {us : List Token} (h : us ≠ []) :
    (ts ++ t :: us).getLast? = us.getLast? := by
  rw [List.getLast?_append_of_ne_nil _ (List.cons_ne_nil _ _), List.getLast?_cons_of_ne_nil h]

/-! ## Loops

The rounds are counted down from a bound, and an induction on the bound goes round with the loop.
That the bound is not what ends the loop follows from the weight of the state. -/

/-- The invariant of a loop over operands: what stands to the left is a phrase, and the loop makes
it a longer one. -/
theorem moreOperands_reads {op : Token} {join : α → α → α} {item : ParserM α}
    {I C : List Token → α → Prop} {ends : Option Token → Token → Prop} (hop : op ≠ .eof)
    (hitem : Reads o item I ends) (hI : ∀ {us b}, I us b → us ≠ [])
    (hC : ∀ {ts us a b}, C ts a → I us b → C (ts ++ op :: us) (join a b)) {n : Nat} :
    ∀ {p q : Parser} {ts : List Token} {left a : α}, p.options = o → C ts left →
      ends ts.getLast? p.current → p.weight < n →
      moreOperands (· == op) join item n left p = .ok a q →
      ∃ us, Moves p us q ∧ C (ts ++ us) a ∧ ends (ts ++ us).getLast? q.current ∧
        q.current ≠ op := by
  induction n with
  | zero => intro p q ts left a _ _ _ hn; exact absurd hn (Nat.not_lt_zero _)
  | succ n ih =>
    intro p q ts left a ho hleft hends hn h
    rw [moreOperands, check_bind] at h
    by_cases hp : p.current = op
    · rw [if_pos (by simpa using hp)] at h
      obtain ⟨⟨⟩, p₁, h₁, h⟩ := bind_eq_ok_iff.1 h
      obtain ⟨b, p₂, h₂, h⟩ := bind_eq_ok_iff.1 h
      have hm₁ : Moves p [op] p₁ := .one hp hop h₁
      obtain ⟨us, hm₂, hb, hends₂⟩ := hitem (hm₁.options_eq.trans ho) h₂
      have hm : Moves p (op :: us) p₂ := hm₁.trans hm₂
      have hw := hm.weight_add_length_le
      rw [List.length_cons] at hw
      obtain ⟨vs, hm', ha, hend⟩ := ih (hm.options_eq.trans ho) (hC hleft hb)
        (by rwa [getLast?_append_cons ts op (hI hb)]) (by omega) h
      refine ⟨op :: us ++ vs, hm.trans hm', ?_⟩
      rw [← List.append_assoc]
      exact ⟨ha, hend⟩
    · rw [if_neg (by simpa using hp)] at h
      obtain ⟨rfl, rfl⟩ := EStateM.Result.ok.inj h
      refine ⟨[], .stay p, ?_⟩
      rw [List.append_nil]
      exact ⟨hleft, hends, hp⟩

/-- A loop over the operands of an operator reads what starts with one item and goes on by the
operator and another item. -/
theorem chain_reads {op : Token} {join : α → α → α} {item : ParserM α}
    {I C : List Token → α → Prop} {ends : Option Token → Token → Prop} (hop : op ≠ .eof)
    (hitem : Reads o item I ends) (hI : ∀ {us b}, I us b → us ≠ [])
    (hone : ∀ {ts a}, I ts a → C ts a)
    (hC : ∀ {ts us a b}, C ts a → I us b → C (ts ++ op :: us) (join a b)) :
    Reads o (chain (· == op) join item) C fun last next ↦ ends last next ∧ next ≠ op := by
  intro p q a ho h
  rw [chain] at h
  obtain ⟨left, p₁, h₁, h⟩ := bind_eq_ok_iff.1 h
  obtain ⟨ts, hm, hleft, hends⟩ := hitem ho h₁
  rw [check_bind] at h
  by_cases hp : p₁.current = op
  · rw [if_pos (by simpa using hp), get_bind] at h
    obtain ⟨us, hm', ha, hend⟩ := moreOperands_reads hop hitem hI hC (hm.options_eq.trans ho)
      (hone hleft) hends p₁.weight_lt_fuel h
    exact ⟨ts ++ us, hm.trans hm', ha, hend⟩
  · rw [if_neg (by simpa using hp)] at h
    obtain ⟨rfl, rfl⟩ := EStateM.Result.ok.inj h
    exact ⟨ts, hm, hone hleft, hends, hp⟩

/-- The items of a list up to the token that closes it. -/
theorem moreItems_reads {close : Token} {item : ParserM Expr} {m : Nat}
    {ends : Option Token → Token → Prop} (hitem : Reads o item (Phrase.Concat o m) ends) {n : Nat} :
    ∀ {p q : Parser} {es : List Expr}, p.options = o → p.weight < n →
      moreItems close item n p = .ok es q →
      ∃ ts, Moves p ts q ∧ Phrase.Items o m ts es ∧ q.current = close := by
  induction n with
  | zero => intro p q es _ hn; exact absurd hn (Nat.not_lt_zero _)
  | succ n ih =>
    intro p q es ho hn h
    rw [moreItems, check_bind] at h
    by_cases hp : p.current = close
    · rw [if_pos (by simpa using hp)] at h
      obtain ⟨rfl, rfl⟩ := EStateM.Result.ok.inj h
      exact ⟨[], .stay p, .nil, hp⟩
    rw [if_neg (by simpa using hp)] at h
    obtain ⟨e, p₁, h₁, h⟩ := bind_eq_ok_iff.1 h
    obtain ⟨ts, hm, he, -⟩ := hitem ho h₁
    rw [check_bind] at h
    by_cases hp₁ : p₁.current = close
    · rw [if_pos (by simpa using hp₁)] at h
      obtain ⟨rfl, rfl⟩ := EStateM.Result.ok.inj h
      exact ⟨ts, hm, .last he, hp₁⟩
    rw [if_neg (by simpa using hp₁)] at h
    obtain ⟨⟨⟩, p₂, h₂, h⟩ := bind_eq_ok_iff.1 h
    obtain ⟨others, p₃, h₃, h⟩ := bind_eq_ok_iff.1 h
    obtain ⟨rfl, rfl⟩ := EStateM.Result.ok.inj h
    obtain ⟨hcomma, h₂⟩ := expect_eq_ok_iff.1 h₂
    have hm₂ : Moves p (ts ++ [.comma]) p₂ := hm.snoc hcomma (by decide) h₂
    have hw := hm₂.weight_add_length_le
    rw [List.length_append, List.length_singleton] at hw
    obtain ⟨us, hm₃, hothers, hclose⟩ := ih (hm₂.options_eq.trans ho) (by omega) h₃
    refine ⟨ts ++ .comma :: us, ?_, .cons he hothers, hclose⟩
    rw [List.append_cons]
    exact hm₂.trans hm₃

/-- A list is its items and the token that closes it. -/
theorem items_ok {close : Token} {item : ParserM Expr} {m : Nat}
    {ends : Option Token → Token → Prop} (hclose : close ≠ .eof)
    (hitem : Reads o item (Phrase.Concat o m) ends) {p q : Parser} {es : List Expr}
    (ho : p.options = o) (h : items close item p = .ok es q) :
    ∃ ts, Moves p (ts ++ [close]) q ∧ Phrase.Items o m ts es := by
  rw [items, get_bind] at h
  obtain ⟨es', p₁, h₁, h⟩ := bind_eq_ok_iff.1 h
  obtain ⟨⟨⟩, p₂, h₂, h⟩ := bind_eq_ok_iff.1 h
  obtain ⟨rfl, rfl⟩ := EStateM.Result.ok.inj h
  obtain ⟨hc, h₂⟩ := expect_eq_ok_iff.1 h₂
  obtain ⟨ts, hm, hes, -⟩ := moreItems_reads hitem ho p.weight_lt_fuel h₁
  exact ⟨ts, hm.snoc hc hclose h₂, hes⟩

/-! ## References, strings and regex literals

What is inside a string or a reference is read without looking at conditions. -/

/-- A reference behind its opening. -/
theorem variableBody_ok {p q : Parser} {ref : VarRef} (h : variableBody p = .ok ref q) :
    ∃ ts, Moves p ts q ∧ Phrase.Reference ts ref := by
  obtain ⟨m, hm, h⟩ := of_peek_bind h
  split at hm <;> subst hm
  · rename_i name hname
    obtain ⟨⟨⟩, p₁, h₁, h⟩ := bind_eq_ok_iff.1 h
    have hm₁ : Moves p [.identifier name] p₁ := .one hname (by simp) (discard_eq_ok_iff.1 h₁)
    obtain ⟨m, hm, h⟩ := of_peek_bind h
    split at hm <;> subst hm
    · rename_i arg harg
      obtain ⟨⟨⟩, p₂, h₂, h⟩ := bind_eq_ok_iff.1 h
      rw [pure_bind] at h
      obtain ⟨⟨⟩, p₃, h₃, h⟩ := bind_eq_ok_iff.1 h
      obtain ⟨rfl, rfl⟩ := EStateM.Result.ok.inj h
      obtain ⟨hend, h₃⟩ := expect_eq_ok_iff.1 h₃
      exact ⟨_, (hm₁.snoc harg (by simp) h₂).snoc hend (by decide) h₃, .argument name arg⟩
    · rw [pure_bind] at h
      obtain ⟨⟨⟩, p₂, h₂, h⟩ := bind_eq_ok_iff.1 h
      obtain ⟨rfl, rfl⟩ := EStateM.Result.ok.inj h
      obtain ⟨hend, h₂⟩ := expect_eq_ok_iff.1 h₂
      exact ⟨_, hm₁.snoc hend (by decide) h₂, .plain name⟩
  · cases h

/-- The parts of a string up to the token that closes it. -/
theorem moreParts_ok {close : Token} {expected : Expectation} {n : Nat} :
    ∀ {p q : Parser} {ps : List StringPart}, p.weight < n →
      moreParts close expected n p = .ok ps q →
      ∃ ts, Moves p ts q ∧ Phrase.Parts ts ps ∧ q.current = close := by
  induction n with
  | zero => intro p q ps hn; exact absurd hn (Nat.not_lt_zero _)
  | succ n ih =>
    intro p q ps hn h
    rw [moreParts] at h
    obtain ⟨m, hm, h⟩ := of_peek_bind h
    split at hm <;> subst hm
    · rename_i text htext
      obtain ⟨⟨⟩, p₁, h₁, h⟩ := bind_eq_ok_iff.1 h
      obtain ⟨others, p₂, h₂, h⟩ := bind_eq_ok_iff.1 h
      obtain ⟨rfl, rfl⟩ := EStateM.Result.ok.inj h
      have hm : Moves p [.strText text] p₁ := .one htext (by simp) (discard_eq_ok_iff.1 h₁)
      have hw := hm.weight_add_length_le
      rw [List.length_singleton] at hw
      obtain ⟨ts, hm', hps, hclose⟩ := ih (by omega) h₂
      exact ⟨_, hm.trans hm', .text text hps, hclose⟩
    · rename_i k hk
      obtain ⟨⟨⟩, p₁, h₁, h⟩ := bind_eq_ok_iff.1 h
      obtain ⟨others, p₂, h₂, h⟩ := bind_eq_ok_iff.1 h
      obtain ⟨rfl, rfl⟩ := EStateM.Result.ok.inj h
      have hm : Moves p [.backref k] p₁ := .one hk (by simp) (discard_eq_ok_iff.1 h₁)
      have hw := hm.weight_add_length_le
      rw [List.length_singleton] at hw
      obtain ⟨ts, hm', hps, hclose⟩ := ih (by omega) h₂
      exact ⟨_, hm.trans hm', .backref k hps, hclose⟩
    · rename_i hbegin
      obtain ⟨⟨⟩, p₁, h₁, h⟩ := bind_eq_ok_iff.1 h
      obtain ⟨ref, p₂, h₂, h⟩ := bind_eq_ok_iff.1 h
      obtain ⟨others, p₃, h₃, h⟩ := bind_eq_ok_iff.1 h
      obtain ⟨rfl, rfl⟩ := EStateM.Result.ok.inj h
      obtain ⟨us, hm₂, href⟩ := variableBody_ok h₂
      have hm : Moves p (.varBegin :: us) p₂ :=
        .cons hbegin (by decide) (discard_eq_ok_iff.1 h₁) hm₂
      have hw := hm.weight_add_length_le
      rw [List.length_cons] at hw
      obtain ⟨ts, hm', hps, hclose⟩ := ih (by omega) h₃
      exact ⟨_, hm.trans hm', .reference href hps, hclose⟩
    · by_cases hclose : p.current = close
      · rw [if_pos (by simpa using hclose)] at h
        obtain ⟨rfl, rfl⟩ := EStateM.Result.ok.inj h
        exact ⟨[], .stay p, .nil, hclose⟩
      · rw [if_neg (by simpa using hclose)] at h
        cases h

/-- A string behind its opening quote. -/
theorem stringBody_ok {p q : Parser} {e : Expr} (h : stringBody p = .ok e q) :
    ∃ ts ps, Moves p (ts ++ [.strEnd]) q ∧ Phrase.Parts ts ps ∧ e = .string ps := by
  rw [stringBody, get_bind] at h
  obtain ⟨ps, p₁, h₁, h⟩ := bind_eq_ok_iff.1 h
  obtain ⟨⟨⟩, p₂, h₂, h⟩ := bind_eq_ok_iff.1 h
  obtain ⟨rfl, rfl⟩ := EStateM.Result.ok.inj h
  obtain ⟨ts, hm, hps, hend⟩ := moreParts_ok p.weight_lt_fuel h₁
  exact ⟨ts, ps, hm.snoc hend (by decide) (discard_eq_ok_iff.1 h₂), hps, rfl⟩

theorem regexLiteral_ok {p q : Parser} {r : RegexLiteral} (ho : p.options = o)
    (h : regexLiteral p = .ok r q) : ∃ t, Moves p [t] q ∧ Phrase.Usable o t r ∧
      Phrase.EndsClosed (some t) := by
  obtain ⟨m, hm, h⟩ := of_get_bind h
  rw [ho] at hm
  split at hm <;> subst hm
  · rename_i pattern flag hp
    by_cases hc : o.engine.compiles pattern (flag || o.ignoreCase) = true
    · rw [if_pos hc] at h
      obtain ⟨⟨⟩, p₁, h₁, h⟩ := bind_eq_ok_iff.1 h
      obtain ⟨rfl, rfl⟩ := EStateM.Result.ok.inj h
      exact ⟨_, .one hp (by simp) h₁, .regex hc, .inl ⟨pattern, flag, rfl⟩⟩
    · rw [if_neg hc] at h
      cases h
  · cases h

/-! ## One level

From operands to disjunctions, each function in terms of the one before. -/

/-- The grammar that the constructs of a phrase for `n` are read by on the inside. -/
def below : Nat → Option Grammar
  | 0 => none
  | n + 1 => some (level n)

theorem level_eq (n : Nat) : level n = around (below n) := by
  cases n <;> rfl

/-- What a grammar for `n` owes to the one around it. -/
structure GrammarReads (o : ParseOptions) (g : Grammar) (n : Nat) : Prop where
  expression : Reads o g.expression (Phrase.Disjunction o n) DisjunctionEnds
  negation : Reads o g.negation (Phrase.Negation o n) ComparisonEnds
  concat : Reads o g.concat (Phrase.Concat o n) ConcatEnds

variable {n : Nat}

/-- The inside of a construct is read by the grammar one level down. -/
theorem nested_below_ok {inside : Grammar → ParserM α} {p r : Parser} {a : α}
    (h : nested (below n) inside p = .ok a r) : ∃ m q, n = m + 1 ∧
      inside (level m) (p.withDepth (p.depth + 1)) = .ok a q ∧ r = q.withDepth (q.depth - 1) := by
  obtain ⟨g, q, hg, hq, hr⟩ := nested_eq_ok_iff.1 h
  cases n with
  | zero => cases hg
  | succ m =>
    obtain rfl := Option.some.inj hg
    exact ⟨m, q, rfl, hq, hr⟩

/-- A word is read as a call if a parenthesis follows, and as a text otherwise. -/
theorem word_ok (hb : ∀ m, n = m + 1 → GrammarReads o (level m) m) {p q : Parser} {name : String}
    {a : Expr} (ho : p.options = o) (hp : p.current = .identifier name)
    (h : operand (below n) p = .ok a q) :
    ∃ ts, Moves p ts q ∧ Phrase.Operand o n ts a ∧ WordEnds ts.getLast? q.current := by
  rw [operand, peek_bind, hp] at h
  obtain ⟨⟨⟩, p₁, h₁, h⟩ := bind_eq_ok_iff.1 h
  have hm₁ : Moves p [.identifier name] p₁ := .one hp (by simp) (discard_eq_ok_iff.1 h₁)
  rw [check_bind] at h
  by_cases hp₁ : p₁.current = .lparen
  · rw [if_pos (by simpa using hp₁)] at h
    obtain ⟨m, r, rfl, hin, rfl⟩ := nested_below_ok h
    obtain ⟨⟨⟩, p₂, h₂, h⟩ := bind_eq_ok_iff.1 hin
    obtain ⟨es, p₃, h₃, h⟩ := bind_eq_ok_iff.1 h
    obtain ⟨rfl, rfl⟩ := EStateM.Result.ok.inj h
    have hm₂ : Moves (p₁.withDepth (p₁.depth + 1)) [.lparen] p₂ := .one hp₁ (by decide) h₂
    have ho₂ : p₂.options = o := hm₂.options_eq.trans (hm₁.options_eq.trans ho)
    obtain ⟨ts, hm₃, hes⟩ := items_ok (by decide) (hb m rfl).concat ho₂ h₃
    refine ⟨_, hm₁.trans (hm₂.trans hm₃).closed, .call name hes, ?_⟩
    simp [WordEnds, List.getLast?_cons]
  · rw [if_neg (by simpa using hp₁)] at h
    obtain ⟨rfl, rfl⟩ := EStateM.Result.ok.inj h
    exact ⟨_, hm₁, .word name, fun _ ↦ hp₁⟩

/-- What is read behind a parenthesis is a condition, and a parenthesis closes it. -/
theorem group_ok (hb : ∀ m, n = m + 1 → GrammarReads o (level m) m) {p q : Parser} {a : Expr}
    (ho : p.options = o) (hp : p.current = .lparen) (h : operand (below n) p = .ok a q) :
    ∃ ts, Moves p ts q ∧ Phrase.Operand o n ts a ∧ WordEnds ts.getLast? q.current := by
  rw [operand, peek_bind, hp] at h
  replace h := (clear_bind _ p).symm.trans h
  obtain ⟨m, r, rfl, hin, rfl⟩ := nested_below_ok h
  obtain ⟨⟨⟩, p₁, h₁, h⟩ := bind_eq_ok_iff.1 hin
  obtain ⟨e, p₂, h₂, h⟩ := bind_eq_ok_iff.1 h
  obtain ⟨⟨⟩, p₃, h₃, h⟩ := bind_eq_ok_iff.1 h
  obtain ⟨rfl, rfl⟩ := EStateM.Result.ok.inj h
  rw [cleared_depth, cleared_withDepth, advance_cleared_eq_ok_iff] at h₁
  have hm₁ : Moves (p.withDepth (p.depth + 1)) [.lparen] p₁ := .one hp (by decide) h₁
  obtain ⟨ts, hm₂, he, -⟩ := (hb m rfl).expression (hm₁.options_eq.trans ho) h₂
  obtain ⟨hend, h₃⟩ := expect_eq_ok_iff.1 h₃
  have hm := ((hm₁.trans hm₂).snoc hend (by decide) h₃).closed
  refine ⟨_, hm, .group he, ?_⟩
  simp [WordEnds, List.getLast?_cons]

/-- **What is read as an operand is one.**  The kinds of operands are told apart by the token in
front, and a word from a call by the one behind it. -/
theorem operand_reads (hb : ∀ m, n = m + 1 → GrammarReads o (level m) m) :
    Reads o (operand (below n)) (Phrase.Operand o n) WordEnds := by
  intro p q a ho hop
  obtain ⟨m, hm, h⟩ := of_peek_bind hop
  split at hm <;> subst hm
  case h_1 b hp =>
    obtain ⟨⟨⟩, p₁, h₁, h⟩ := bind_eq_ok_iff.1 h
    obtain ⟨rfl, rfl⟩ := EStateM.Result.ok.inj h
    exact ⟨_, .one hp (by simp) (discard_eq_ok_iff.1 h₁), .boolean b, by simp [WordEnds]⟩
  case h_2 k hp =>
    obtain ⟨⟨⟩, p₁, h₁, h⟩ := bind_eq_ok_iff.1 h
    obtain ⟨rfl, rfl⟩ := EStateM.Result.ok.inj h
    exact ⟨_, .one hp (by simp) (discard_eq_ok_iff.1 h₁), .number k, by simp [WordEnds]⟩
  case h_3 hp =>
    obtain ⟨⟨⟩, p₁, h₁, h⟩ := bind_eq_ok_iff.1 h
    obtain ⟨ts, ps, hm, hps, rfl⟩ := stringBody_ok h
    refine ⟨_, .cons hp (by decide) (discard_eq_ok_iff.1 h₁) hm, .string hps, ?_⟩
    simp [WordEnds, List.getLast?_cons]
  case h_4 hp =>
    obtain ⟨⟨⟩, p₁, h₁, h⟩ := bind_eq_ok_iff.1 h
    obtain ⟨ref, p₂, h₂, h⟩ := bind_eq_ok_iff.1 h
    obtain ⟨rfl, rfl⟩ := EStateM.Result.ok.inj h
    obtain ⟨ts, hm, href⟩ := variableBody_ok h₂
    refine ⟨_, .cons hp (by decide) (discard_eq_ok_iff.1 h₁) hm, .reference href, ?_⟩
    cases href <;> simp [WordEnds]
  case h_5 k hp =>
    obtain ⟨⟨⟩, p₁, h₁, h⟩ := bind_eq_ok_iff.1 h
    obtain ⟨rfl, rfl⟩ := EStateM.Result.ok.inj h
    exact ⟨_, .one hp (by simp) (discard_eq_ok_iff.1 h₁), .backref k, by simp [WordEnds]⟩
  case h_6 name hp => exact word_ok hb ho hp hop
  case h_7 hp => exact group_ok hb ho hp hop
  all_goals cases h

theorem map_eq_ok_iff {β : Type} {f : ParserM α} {g : α → β} {p q : Parser} {b : β} :
    EStateM.map g f p = .ok b q ↔ ∃ a, f p = .ok a q ∧ g a = b := by
  rw [EStateM.map]
  cases h : f p with
  | ok a r =>
    constructor
    · rintro ⟨⟩
      exact ⟨a, rfl, rfl⟩
    · rintro ⟨_, ⟨⟩, rfl⟩
      rfl
  | error e r => simp

theorem concatenation_eq (below : Option Grammar) : concatenation below =
    (chain (· == .dot) (· ++ ·) ((operand below).map fun e ↦ [e])).map Phrase.concatTree := by
  funext p
  change EStateM.bind _ _ p = EStateM.map _ _ p
  rw [EStateM.bind, EStateM.map]
  cases chain (· == .dot) (· ++ ·) ((operand below).map fun e ↦ [e]) p with
  | error e q => rfl
  | ok es q =>
    match es with
    | [] | [_] | _ :: _ :: _ => rfl

theorem single_reads (hb : ∀ m, n = m + 1 → GrammarReads o (level m) m) :
    Reads o ((operand (below n)).map fun e ↦ [e]) (Phrase.Single o n) WordEnds := by
  intro p q es ho h
  obtain ⟨e, he, rfl⟩ := map_eq_ok_iff.1 h
  obtain ⟨ts, hm, he, hends⟩ := operand_reads hb ho he
  exact ⟨ts, hm, ⟨e, rfl, he⟩, hends⟩

/-- **What is read as a concatenation is one.** -/
theorem concatenation_reads (hb : ∀ m, n = m + 1 → GrammarReads o (level m) m) :
    Reads o (concatenation (below n)) (Phrase.Concat o n) ConcatEnds := by
  have hchain : Reads o (chain (· == .dot) (· ++ ·) ((operand (below n)).map fun e ↦ [e]))
      (Phrase.Operands o n) ConcatEnds := by
    refine chain_reads (by decide) (single_reads hb) ?_ ?_ ?_
    · rintro us es ⟨e, rfl, he⟩
      exact he.ne_nil
    · rintro ts es ⟨e, rfl, he⟩
      exact .one he
    · rintro ts us es fs hes ⟨e, rfl, he⟩
      exact .dot hes he
  intro p q e ho h
  rw [concatenation_eq] at h
  obtain ⟨es, hes, rfl⟩ := map_eq_ok_iff.1 h
  obtain ⟨ts, hm, hes, hends⟩ := hchain ho hes
  exact ⟨ts, hm, Phrase.concat_iff.2 ⟨es, hes, rfl⟩, hends⟩

/-- What a comparison is known to be before the look at what follows it: an operand without a
relation behind it, or a test. -/
inductive BareReads (o : ParseOptions) (n : Nat) (ts : List Token) (e : Expr) (next : Token) : Prop
  | concat (h : Phrase.Concat o n ts e) (hends : ConcatEnds ts.getLast? next)
      (hnext : isRelational next = false)
  | test (h : Phrase.Test o n ts e) (hends : TestEnds ts.getLast? next)

/-- Behind a token that compares, an operand is read, and something is made of it. -/
theorem rightOperand_ok (hb : ∀ m, n = m + 1 → GrammarReads o (level m) m) {p q : Parser}
    {t : Token} {make : Expr → Expr} {a : Expr} (ho : p.options = o) (hp : p.current = t)
    (ht : t ≠ .eof)
    (h : (advance >>= fun _ ↦ concatenation (below n) >>= fun f ↦ pure (make f)) p = .ok a q) :
    ∃ us f, a = make f ∧ Moves p (t :: us) q ∧ Phrase.Concat o n us f ∧
      ConcatEnds us.getLast? q.current := by
  obtain ⟨⟨⟩, p₁, h₁, h⟩ := bind_eq_ok_iff.1 h
  obtain ⟨f, p₂, h₂, h⟩ := bind_eq_ok_iff.1 h
  obtain ⟨rfl, rfl⟩ := EStateM.Result.ok.inj h
  have hm₁ : Moves p [t] p₁ := .one hp ht h₁
  obtain ⟨us, hm₂, hf, hends⟩ := concatenation_reads hb (hm₁.options_eq.trans ho) h₂
  exact ⟨us, f, rfl, hm₁.trans hm₂, hf, hends⟩

/-- Behind a token that matches, a regex literal is read, and something is made of it. -/
theorem rightRegex_ok {p q : Parser} {t : Token} {make : RegexLiteral → Expr} {a : Expr}
    (ho : p.options = o) (hp : p.current = t) (ht : t ≠ .eof)
    (h : (advance >>= fun _ ↦ regexLiteral >>= fun r ↦ pure (make r)) p = .ok a q) :
    ∃ u r, a = make r ∧ Moves p [t, u] q ∧ Phrase.Usable o u r ∧ Phrase.EndsClosed (some u) := by
  obtain ⟨⟨⟩, p₁, h₁, h⟩ := bind_eq_ok_iff.1 h
  obtain ⟨r, p₂, h₂, h⟩ := bind_eq_ok_iff.1 h
  obtain ⟨rfl, rfl⟩ := EStateM.Result.ok.inj h
  have hm₁ : Moves p [t] p₁ := .one hp ht h₁
  obtain ⟨u, hm₂, hr, hend⟩ := regexLiteral_ok (hm₁.options_eq.trans ho) h₂
  exact ⟨u, r, rfl, hm₁.trans hm₂, hr, hend⟩

/-- Behind an operand stands a relation, or the operand is all there is. -/
theorem relation_ok (hb : ∀ m, n = m + 1 → GrammarReads o (level m) m) {p q : Parser}
    {ts : List Token} {e a : Expr} (he : Phrase.Concat o n ts e)
    (hends : ConcatEnds ts.getLast? p.current) (ho : p.options = o)
    (h : relation (below n) e p = .ok a q) :
    ∃ us, Moves p us q ∧ BareReads o n (ts ++ us) a q.current := by
  obtain ⟨m, hm, h⟩ := of_peek_bind h
  split at hm <;> subst hm
  case h_1 op hp =>
    obtain ⟨us, f, rfl, hm, hf, hends⟩ := rightOperand_ok hb ho hp (by simp) h
    refine ⟨_, hm, .test (.compare op he hf) (.inr ?_)⟩
    rwa [getLast?_append_cons _ _ hf.ne_nil]
  case h_2 hp =>
    obtain ⟨u, r, rfl, hm, hr, hend⟩ := rightRegex_ok ho hp (by decide) h
    refine ⟨_, hm, .test (.isMatch he hr) (.inl ?_)⟩
    rwa [getLast?_append_cons _ _ (List.cons_ne_nil _ _)]
  case h_3 hp =>
    obtain ⟨u, r, rfl, hm, hr, hend⟩ := rightRegex_ok ho hp (by decide) h
    refine ⟨_, hm, .test (.isNoMatch he hr) (.inl ?_)⟩
    rwa [getLast?_append_cons _ _ (List.cons_ne_nil _ _)]
  case h_4 hp =>
    obtain ⟨⟨⟩, p₁, h₁, h⟩ := bind_eq_ok_iff.1 h
    obtain ⟨⟨⟩, p₂, h₂, h⟩ := bind_eq_ok_iff.1 h
    obtain ⟨es, p₃, h₃, h⟩ := bind_eq_ok_iff.1 h
    obtain ⟨rfl, rfl⟩ := EStateM.Result.ok.inj h
    obtain ⟨hbrace, h₂⟩ := expect_eq_ok_iff.1 h₂
    have hm₂ : Moves p [.isIn, .lbrace] p₂ :=
      .cons hp (by decide) h₁ (.one hbrace (by decide) h₂)
    obtain ⟨us, hm₃, hes⟩ :=
      items_ok (by decide) (concatenation_reads hb) (hm₂.options_eq.trans ho) h₃
    refine ⟨_, hm₂.trans hm₃, .test ?_ (.inl ?_)⟩
    · simpa using Phrase.Test.isIn he hes
    · simp [Phrase.EndsClosed, List.getLast?_cons]
  case h_5 op hp =>
    obtain ⟨us, f, rfl, hm, hf, hends⟩ := rightOperand_ok hb ho hp (by simp) h
    refine ⟨_, hm, .test (.binaryTest op he hf) (.inr ?_)⟩
    rwa [getLast?_append_cons _ _ hf.ne_nil]
  case h_6 hcmp hmatch hno hin hbin =>
    obtain ⟨rfl, rfl⟩ := EStateM.Result.ok.inj h
    refine ⟨[], .stay p, ?_⟩
    rw [List.append_nil]
    refine .concat he hends ?_
    cases hp : p.current with
    | compare op => exact absurd hp (hcmp op)
    | isMatch => exact absurd hp hmatch
    | isNoMatch => exact absurd hp hno
    | isIn => exact absurd hp hin
    | binaryOp op => exact absurd hp (hbin op)
    | _ => rfl

theorem clientTest_ok (hb : ∀ m, n = m + 1 → GrammarReads o (level m) m) {p q : Parser} {a : Expr}
    (ho : p.options = o) (h : clientTest (below n) p = .ok a q) : ∃ us, Moves p us q ∧
      Phrase.Test o n (.unaryOp "-R" :: us) a ∧
      TestEnds (.unaryOp "-R" :: us).getLast? q.current := by
  obtain ⟨m, hm, h⟩ := of_peek_bind h
  split at hm <;> subst hm
  · obtain ⟨r, p₁, h₁, h⟩ := bind_eq_ok_iff.1 h
    obtain ⟨rfl, rfl⟩ := EStateM.Result.ok.inj h
    obtain ⟨t, hm, hr, hend⟩ := regexLiteral_ok ho h₁
    exact ⟨[t], hm, .clientMatch hr, .inl hend⟩
  · obtain ⟨e, p₁, h₁, h⟩ := bind_eq_ok_iff.1 h
    obtain ⟨rfl, rfl⟩ := EStateM.Result.ok.inj h
    obtain ⟨us, hm, he, hends⟩ := concatenation_reads hb ho h₁
    refine ⟨us, hm, .clientBlock he, .inr ?_⟩
    rwa [List.getLast?_cons_of_ne_nil he.ne_nil]

/-- A comparison without the look at what follows it: a test, or an operand with a relation. -/
def bareComparison (below : Option Grammar) : ParserM Expr :=
  peek >>= fun t ↦ match t with
  | .unaryOp op => advance >>= fun _ ↦
    if op = "-R" then clientTest below
    else concatenation below >>= fun e ↦ pure (.unaryTest op e)
  | _ => concatenation below >>= relation below

theorem comparison_eq (below : Option Grammar) : comparison below =
    bareComparison below >>= fun e ↦
      check isRelational >>= fun b ↦ if b then unexpected .noSecondComparison else pure e := by
  rw [comparison, bareComparison, bind_assoc]
  refine congrArg _ (funext fun t ↦ ?_)
  cases t with
  | unaryOp op =>
    by_cases hop : op = "-R" <;> simp only [hop, if_true, if_false, bind_assoc, pure_bind]
  | _ => simp only [bind_assoc]

/-- A test of one operand, or an operand and what follows it. -/
theorem bareComparison_ok (hb : ∀ m, n = m + 1 → GrammarReads o (level m) m) {p q : Parser}
    {a : Expr} (ho : p.options = o) (h : bareComparison (below n) p = .ok a q) :
    ∃ ts, Moves p ts q ∧ BareReads o n ts a q.current := by
  obtain ⟨m, hm, h⟩ := of_peek_bind h
  split at hm <;> subst hm
  · rename_i op hp
    obtain ⟨⟨⟩, p₁, h₁, h⟩ := bind_eq_ok_iff.1 h
    have hm₁ : Moves p [.unaryOp op] p₁ := .one hp (by simp) h₁
    by_cases hop : op = "-R"
    · rw [if_pos hop] at h
      obtain ⟨us, hm, he, hends⟩ := clientTest_ok hb (hm₁.options_eq.trans ho) h
      subst hop
      exact ⟨_, hm₁.trans hm, .test he hends⟩
    · rw [if_neg hop] at h
      obtain ⟨f, p₂, h₂, h⟩ := bind_eq_ok_iff.1 h
      obtain ⟨rfl, rfl⟩ := EStateM.Result.ok.inj h
      obtain ⟨us, hm₂, hf, hends⟩ := concatenation_reads hb (hm₁.options_eq.trans ho) h₂
      refine ⟨_, hm₁.trans hm₂, .test (.unaryTest hop hf) (.inr ?_)⟩
      rwa [List.singleton_append, List.getLast?_cons_of_ne_nil hf.ne_nil]
  · obtain ⟨left, p₁, h₁, h⟩ := bind_eq_ok_iff.1 h
    obtain ⟨ts, hm₁, hleft, hends⟩ := concatenation_reads hb ho h₁
    obtain ⟨us, hm, he⟩ := relation_ok hb hleft hends (hm₁.options_eq.trans ho) h
    exact ⟨_, hm₁.trans hm, he⟩

/-- **What is read as a comparison is one**, and no second comparison follows it.  After the first
one the parser looks for an operator once more, and fails if there is one. -/
theorem comparison_reads (hb : ∀ m, n = m + 1 → GrammarReads o (level m) m) :
    Reads o (comparison (below n)) (Phrase.Comparison o n) ComparisonEnds := by
  intro p q a ho h
  rw [comparison_eq] at h
  obtain ⟨e, p₁, h₁, h⟩ := bind_eq_ok_iff.1 h
  rw [check_bind] at h
  by_cases hrel : isRelational p₁.current = true
  · rw [if_pos hrel] at h
    cases h
  · rw [if_neg hrel] at h
    obtain ⟨rfl, rfl⟩ := EStateM.Result.ok.inj h
    obtain ⟨ts, hm, he⟩ := bareComparison_ok hb ho h₁
    cases he with
    | concat he hends _ => exact ⟨ts, hm, .concat he, .inr hends, by simpa using hrel⟩
    | test he hends => exact ⟨ts, hm, .test he, hends, by simpa using hrel⟩

/-- **What is read as a negation is one**, and each `!` opens a construct. -/
theorem negation_reads (hb : ∀ m, n = m + 1 → GrammarReads o (level m) m) :
    Reads o (negation (below n)) (Phrase.Negation o n) ComparisonEnds := by
  intro p q a ho h
  rw [negation, check_bind] at h
  by_cases hp : p.current = .not
  · rw [if_pos (by simpa using hp)] at h
    obtain ⟨m, r, rfl, hin, rfl⟩ := nested_below_ok h
    obtain ⟨⟨⟩, p₁, h₁, h⟩ := bind_eq_ok_iff.1 hin
    obtain ⟨e, p₂, h₂, h⟩ := bind_eq_ok_iff.1 h
    obtain ⟨rfl, rfl⟩ := EStateM.Result.ok.inj h
    have hm₁ : Moves (p.withDepth (p.depth + 1)) [.not] p₁ := .one hp (by decide) h₁
    obtain ⟨ts, hm, he, hends⟩ := (hb m rfl).negation (hm₁.options_eq.trans ho) h₂
    refine ⟨_, (hm₁.trans hm).closed, .not he, ?_⟩
    rwa [List.singleton_append, List.getLast?_cons_of_ne_nil he.ne_nil]
  · rw [if_neg (by simpa using hp)] at h
    obtain ⟨ts, hm, he, hends⟩ := comparison_reads hb ho h
    exact ⟨ts, hm, .comparison he, hends⟩

theorem conjunction_reads (hb : ∀ m, n = m + 1 → GrammarReads o (level m) m) :
    Reads o (conjunction (below n)) (Phrase.Conjunction o n) ConjunctionEnds :=
  chain_reads (by decide) (negation_reads hb) (fun h ↦ h.ne_nil) .one .and

theorem disjunction_reads (hb : ∀ m, n = m + 1 → GrammarReads o (level m) m) :
    Reads o (disjunction (below n)) (Phrase.Disjunction o n) DisjunctionEnds :=
  chain_reads (by decide) (conjunction_reads hb) (fun h ↦ h.ne_nil) .one .or

/-- **The grammar reads phrases**, however many constructs it may open. -/
theorem level_reads (n : Nat) : GrammarReads o (level n) n := by
  induction n with
  | zero =>
    have hb : ∀ m, 0 = m + 1 → GrammarReads o (level m) m := fun m hm ↦ absurd hm (by simp)
    rw [level_eq]
    exact ⟨disjunction_reads hb, negation_reads hb, concatenation_reads hb⟩
  | succ n ih =>
    have hb : ∀ m, n + 1 = m + 1 → GrammarReads o (level m) m := fun m hm ↦ Nat.succ.inj hm ▸ ih
    rw [level_eq]
    exact ⟨disjunction_reads hb, negation_reads hb, concatenation_reads hb⟩

end Parser

end RequestCondition

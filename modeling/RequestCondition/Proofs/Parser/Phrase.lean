import Mathlib.Data.List.Basic
import RequestCondition.Parser.Grammar

/-!
# The grammar of conditions

The grammar as a set of rules, with nothing said about how a source is read.  From the loosest
binding to the tightest:

    disjunction ::= conjunction ('||' conjunction)*
    conjunction ::= negation ('&&' negation)*
    negation    ::= '!' negation | comparison
    comparison  ::= concat | test
    test        ::= '-R' regex | '-R' concat | unary concat
                  | concat cmp concat | concat ('=~' | '!~') regex
                  | concat 'in' '{' items '}' | concat binary concat
    items       ::= (concat (',' concat)* ','?)?
    concat      ::= operand ('.' operand)*
    operand     ::= boolean | number | string | variable | backref | word
                  | word '(' items ')' | '(' disjunction ')'

Each kind of phrase is a relation `Phrase.Disjunction o n ts e`, and so on: the tokens `ts` are such
a phrase, its tree is `e`, and at no point of it are more than `n` negations, groups and argument
lists open at once.  A construct that opens one is a phrase for `n + 1` around a phrase for `n`.
The options `o` decide which regexes can be used and how they are flagged.

The rules for operators that repeat are recursive to the left, as the trees are.  A concatenation
keeps its operands in one list.

The number `n` is an argument of the rules and not a measure of what they derive, because a phrase
that is read is given it from outside: the parser counts what is open as it goes down.

The module has the rules and what can be seen from them alone: how phrases start, how they end, and
how a rule that is recursive to the left is gone through from the left (`Run`).  All of it is about
tokens and trees.  That phrases are what is read is proved in two halves elsewhere, one for each
direction.
-/

set_option autoImplicit false

namespace RequestCondition

namespace Phrase

/-- A variable reference behind its opening. -/
inductive Reference : List Token → VarRef → Prop
  | plain (name : String) : Reference [.identifier name, .varEnd] ⟨name, []⟩
  | argument (name arg : String) :
      Reference [.identifier name, .varArg arg, .varEnd] ⟨name, [arg]⟩

/-- What stands between the quotes of a string. -/
inductive Parts : List Token → List StringPart → Prop
  | nil : Parts [] []
  | text {ts : List Token} {ps : List StringPart} (s : String) (h : Parts ts ps) :
      Parts (.strText s :: ts) (.text s :: ps)
  | backref {ts : List Token} {ps : List StringPart} (k : Nat) (h : Parts ts ps) :
      Parts (.backref k :: ts) (.backref k :: ps)
  | reference {us ts : List Token} {ref : VarRef} {ps : List StringPart} (hr : Reference us ref)
      (h : Parts ts ps) : Parts (.varBegin :: us ++ ts) (.variable ref :: ps)

/-- A regex token whose pattern can be used. -/
inductive Usable (o : ParseOptions) : Token → RegexLiteral → Prop
  | regex {pattern : String} {flag : Bool}
      (h : o.engine.compiles pattern (flag || o.ignoreCase) = true) :
      Usable o (.regex pattern flag) ⟨pattern, flag || o.ignoreCase⟩

mutual

inductive Disjunction (o : ParseOptions) : Nat → List Token → Expr → Prop
  | one {n : Nat} {ts : List Token} {e : Expr} (h : Conjunction o n ts e) : Disjunction o n ts e
  | or {n : Nat} {ts us : List Token} {e f : Expr} (h : Disjunction o n ts e)
      (h' : Conjunction o n us f) : Disjunction o n (ts ++ .or :: us) (.logical .or e f)

inductive Conjunction (o : ParseOptions) : Nat → List Token → Expr → Prop
  | one {n : Nat} {ts : List Token} {e : Expr} (h : Negation o n ts e) : Conjunction o n ts e
  | and {n : Nat} {ts us : List Token} {e f : Expr} (h : Conjunction o n ts e)
      (h' : Negation o n us f) : Conjunction o n (ts ++ .and :: us) (.logical .and e f)

inductive Negation (o : ParseOptions) : Nat → List Token → Expr → Prop
  | comparison {n : Nat} {ts : List Token} {e : Expr} (h : Comparison o n ts e) : Negation o n ts e
  | not {n : Nat} {ts : List Token} {e : Expr} (h : Negation o n ts e) :
      Negation o (n + 1) (.not :: ts) (.not e)

inductive Comparison (o : ParseOptions) : Nat → List Token → Expr → Prop
  | concat {n : Nat} {ts : List Token} {e : Expr} (h : Concat o n ts e) : Comparison o n ts e
  | test {n : Nat} {ts : List Token} {e : Expr} (h : Test o n ts e) : Comparison o n ts e

/-- An operand behind a test, or two operands around one. -/
inductive Test (o : ParseOptions) : Nat → List Token → Expr → Prop
  /-- `-R` before a regex literal matches the address of the client. -/
  | clientMatch {n : Nat} {t : Token} {r : RegexLiteral} (h : Usable o t r) :
      Test o n [.unaryOp "-R", t] (.isMatch false (.variable ⟨"REMOTE_ADDR", []⟩) r)
  /-- `-R` before anything else looks the address of the client up in a network. -/
  | clientBlock {n : Nat} {ts : List Token} {e : Expr} (h : Concat o n ts e) :
      Test o n (.unaryOp "-R" :: ts)
        (.binaryTest "-ipmatch" (.variable ⟨"REMOTE_ADDR", []⟩) e)
  | unaryTest {n : Nat} {ts : List Token} {e : Expr} {op : String} (hop : op ≠ "-R")
      (h : Concat o n ts e) : Test o n (.unaryOp op :: ts) (.unaryTest op e)
  | compare {n : Nat} {ts us : List Token} {e f : Expr} (op : CmpOp) (h : Concat o n ts e)
      (h' : Concat o n us f) : Test o n (ts ++ .compare op :: us) (.comparison op e f)
  | isMatch {n : Nat} {ts : List Token} {e : Expr} {t : Token} {r : RegexLiteral}
      (h : Concat o n ts e) (hr : Usable o t r) :
      Test o n (ts ++ [.isMatch, t]) (.isMatch false e r)
  | isNoMatch {n : Nat} {ts : List Token} {e : Expr} {t : Token} {r : RegexLiteral}
      (h : Concat o n ts e) (hr : Usable o t r) :
      Test o n (ts ++ [.isNoMatch, t]) (.isMatch true e r)
  | isIn {n : Nat} {ts us : List Token} {e : Expr} {es : List Expr} (h : Concat o n ts e)
      (h' : Items o n us es) :
      Test o n (ts ++ .isIn :: .lbrace :: us ++ [.rbrace]) (.isIn e es)
  | binaryTest {n : Nat} {ts us : List Token} {e f : Expr} (op : String) (h : Concat o n ts e)
      (h' : Concat o n us f) : Test o n (ts ++ .binaryOp op :: us) (.binaryTest op e f)

/-- Concatenations with a comma between each two; one may stand behind the last. -/
inductive Items (o : ParseOptions) : Nat → List Token → List Expr → Prop
  | nil {n : Nat} : Items o n [] []
  | last {n : Nat} {ts : List Token} {e : Expr} (h : Concat o n ts e) : Items o n ts [e]
  | cons {n : Nat} {ts us : List Token} {e : Expr} {es : List Expr} (h : Concat o n ts e)
      (h' : Items o n us es) : Items o n (ts ++ .comma :: us) (e :: es)

inductive Concat (o : ParseOptions) : Nat → List Token → Expr → Prop
  | one {n : Nat} {ts : List Token} {e : Expr} (h : Operand o n ts e) : Concat o n ts e
  | many {n : Nat} {ts : List Token} {es : List Expr} (h : Operands o n ts es)
      (hes : 2 ≤ es.length) : Concat o n ts (.concat es)

/-- One operand or more, with a point between each two. -/
inductive Operands (o : ParseOptions) : Nat → List Token → List Expr → Prop
  | one {n : Nat} {ts : List Token} {e : Expr} (h : Operand o n ts e) : Operands o n ts [e]
  | dot {n : Nat} {ts us : List Token} {es : List Expr} {e : Expr} (h : Operands o n ts es)
      (h' : Operand o n us e) : Operands o n (ts ++ .dot :: us) (es ++ [e])

inductive Operand (o : ParseOptions) : Nat → List Token → Expr → Prop
  | boolean {n : Nat} (b : Bool) : Operand o n [.boolean b] (.boolean b)
  | number {n : Nat} (k : Decimal) : Operand o n [.number k] (.number k)
  | string {n : Nat} {ts : List Token} {ps : List StringPart} (h : Parts ts ps) :
      Operand o n (.strBegin :: ts ++ [.strEnd]) (.string ps)
  | reference {n : Nat} {ts : List Token} {ref : VarRef} (h : Reference ts ref) :
      Operand o n (.varBegin :: ts) (.variable ref)
  | backref {n : Nat} (k : Nat) : Operand o n [.backref k] (.backref k)
  /-- A bare word is a string. -/
  | word {n : Nat} (name : String) : Operand o n [.identifier name] (.string [.text name])
  | call {n : Nat} {ts : List Token} {es : List Expr} (name : String) (h : Items o n ts es) :
      Operand o (n + 1) (.identifier name :: .lparen :: ts ++ [.rparen]) (.call name es)
  | group {n : Nat} {ts : List Token} {e : Expr} (h : Disjunction o n ts e) :
      Operand o (n + 1) (.lparen :: ts ++ [.rparen]) e

end

variable {o : ParseOptions} {n : Nat} {ts : List Token} {e : Expr} {es : List Expr}

/-! ## How phrases start

A parser chooses by the token in front.  So it matters that no phrase is empty, that operands start
with other tokens than the operators of one operand, and that nothing starts as a list is closed. -/

/-- The tokens that operands start with. -/
def startsOperand : Token → Bool
  | .boolean _ | .number _ | .strBegin | .varBegin | .backref _ | .identifier _ | .lparen => true
  | _ => false

/-- Operands start with one of their tokens. -/
theorem Operand.starts (h : Operand o n ts e) : ∃ t us, ts = t :: us ∧ startsOperand t = true := by
  cases h <;> exact ⟨_, _, rfl, rfl⟩

theorem Operands.starts : ∀ {ts : List Token} {es : List Expr}, Operands o n ts es →
    ∃ t us, ts = t :: us ∧ startsOperand t = true
  | _, _, .one h => h.starts
  | _, _, .dot h _ => by
    obtain ⟨t, us, rfl, ht⟩ := h.starts
    exact ⟨t, _, rfl, ht⟩

theorem Concat.starts (h : Concat o n ts e) : ∃ t us, ts = t :: us ∧ startsOperand t = true := by
  cases h with
  | one h => exact h.starts
  | many h _ => exact h.starts

/-- Tests start with an operand or with an operator of one operand. -/
theorem Test.starts (h : Test o n ts e) :
    ∃ t us, ts = t :: us ∧ (startsOperand t = true ∨ ∃ op, t = .unaryOp op) := by
  cases h with
  | clientMatch _ | clientBlock _ | unaryTest _ _ => exact ⟨_, _, rfl, .inr ⟨_, rfl⟩⟩
  | compare _ h _ | isMatch h _ | isNoMatch h _ | isIn h _ | binaryTest _ h _ =>
    obtain ⟨t, us, rfl, ht⟩ := h.starts
    exact ⟨t, _, rfl, .inl ht⟩

theorem Comparison.starts (h : Comparison o n ts e) :
    ∃ t us, ts = t :: us ∧ (startsOperand t = true ∨ ∃ op, t = .unaryOp op) := by
  cases h with
  | concat h =>
    obtain ⟨t, us, rfl, ht⟩ := h.starts
    exact ⟨t, us, rfl, .inl ht⟩
  | test h => exact h.starts

theorem Operand.ne_nil (h : Operand o n ts e) : ts ≠ [] := by
  obtain ⟨t, us, rfl, -⟩ := h.starts
  exact List.cons_ne_nil t us

theorem Concat.ne_nil (h : Concat o n ts e) : ts ≠ [] := by
  obtain ⟨t, us, rfl, -⟩ := h.starts
  exact List.cons_ne_nil t us

theorem Negation.ne_nil (h : Negation o n ts e) : ts ≠ [] := by
  cases h with
  | comparison h =>
    obtain ⟨t, us, rfl, -⟩ := h.starts
    exact List.cons_ne_nil t us
  | not _ => exact List.cons_ne_nil _ _

theorem Conjunction.ne_nil (h : Conjunction o n ts e) : ts ≠ [] := by
  cases h with
  | one h => exact h.ne_nil
  | and _ _ => exact List.append_ne_nil_of_right_ne_nil _ (List.cons_ne_nil _ _)

/-! ## How operands end

Only the name of a function can be mistaken at the end of an operand, and a comparison with a regex
literal or a list at its end has no operand there at all. -/

/-- Whether a phrase that ends so has no operand at its end: it ends in a regex literal or in the
brace of a list. -/
def EndsClosed (last : Option Token) : Prop :=
  (∃ pattern flag, last = some (.regex pattern flag)) ∨ last = some .rbrace

/-- No operand ends in a regex literal or in the brace of a list: a call and a group end in
parentheses, a string ends in its quote, and a reference in a brace of its own kind. -/
theorem Operand.not_endsClosed (h : Operand o n ts e) : ¬ EndsClosed ts.getLast? := by
  cases h with
  | reference h => cases h <;> simp [EndsClosed]
  | _ => simp [EndsClosed, List.getLast?_cons]

theorem Operands.not_endsClosed (h : Operands o n ts es) : ¬ EndsClosed ts.getLast? := by
  cases h with
  | one h => exact h.not_endsClosed
  | dot _ h =>
    rw [List.getLast?_append_of_ne_nil _ (List.cons_ne_nil _ _),
      List.getLast?_cons_of_ne_nil h.ne_nil]
    exact h.not_endsClosed

theorem Concat.not_endsClosed (h : Concat o n ts e) : ¬ EndsClosed ts.getLast? := by
  cases h with
  | one h => exact h.not_endsClosed
  | many h _ => exact h.not_endsClosed

/-! ## Repetition from the left

The rules that repeat grow at the right end, and a reader meets the first item first.  `Run` is what
follows a first item `a`: the tokens of further items, each behind an operator, and what joining
them to `a` one after another leads to. -/

/-- What the items behind a first one make of it. -/
inductive Run {α : Type} (op : Token) (join : α → α → α) (I : List Token → α → Prop) :
    α → List Token → α → Prop
  | done (a : α) : Run op join I a [] a
  | more {us ts : List Token} {a b c : α} (hb : I us b) (h : Run op join I (join a b) ts c) :
      Run op join I a (op :: us ++ ts) c

/-- One more item at the end. -/
theorem Run.snoc {α : Type} {op : Token} {join : α → α → α} {I : List Token → α → Prop}
    {ts us : List Token} {a b c : α} (h : Run op join I a ts b) (hc : I us c) :
    Run op join I a (ts ++ op :: us) (join b c) := by
  induction h with
  | done a =>
    have h : Run op join I a (op :: us ++ []) (join a c) := .more hc (.done _)
    rwa [List.append_nil] at h
  | more hb _ ih =>
    rw [List.append_assoc]
    exact .more hb ih

/-- A disjunction is a first conjunction and a run of others.  The recursion is on the left, so the
run is made longer at its far end. -/
theorem Disjunction.run : ∀ {ts : List Token} {e : Expr}, Disjunction o n ts e →
    ∃ us f vs, Conjunction o n us f ∧ ts = us ++ vs ∧
      Run .or (.logical .or) (Conjunction o n) f vs e
  | ts, e, .one h => ⟨ts, e, [], h, (List.append_nil ts).symm, .done e⟩
  | _, _, .or h h' => by
    obtain ⟨us, f, vs, hf, rfl, hr⟩ := h.run
    exact ⟨us, f, _, hf, List.append_assoc us vs _, hr.snoc h'⟩

/-- A conjunction is a first negation and a run of others. -/
theorem Conjunction.run : ∀ {ts : List Token} {e : Expr}, Conjunction o n ts e →
    ∃ us f vs, Negation o n us f ∧ ts = us ++ vs ∧
      Run .and (.logical .and) (Negation o n) f vs e
  | ts, e, .one h => ⟨ts, e, [], h, (List.append_nil ts).symm, .done e⟩
  | _, _, .and h h' => by
    obtain ⟨us, f, vs, hf, rfl, hr⟩ := h.run
    exact ⟨us, f, _, hf, List.append_assoc us vs _, hr.snoc h'⟩

/-- An operand as a list of operands. -/
def Single (o : ParseOptions) (n : Nat) (ts : List Token) (es : List Expr) : Prop :=
  ∃ e, es = [e] ∧ Operand o n ts e

/-- Operands are a first one and a run of others, each as a list of its own. -/
theorem Operands.run : ∀ {ts : List Token} {es : List Expr}, Operands o n ts es →
    ∃ us fs vs, Single o n us fs ∧ ts = us ++ vs ∧ Run .dot (· ++ ·) (Single o n) fs vs es
  | ts, _, .one (e := e) h => ⟨ts, [e], [], ⟨e, rfl, h⟩, (List.append_nil ts).symm, .done [e]⟩
  | _, _, .dot (e := e) h h' => by
    obtain ⟨us, fs, vs, hf, rfl, hr⟩ := h.run
    exact ⟨us, fs, _, hf, List.append_assoc us vs _, hr.snoc ⟨e, rfl, h'⟩⟩

/-! ## Concatenations from their operands

The rules have one case for a single operand and another for two or more.  A reader collects
operands first and decides afterwards. -/

/-- Operands joined by points; a single one stands for itself. -/
def concatTree : List Expr → Expr
  | [e] => e
  | es => .concat es

theorem Operands.ne_nil (h : Operands o n ts es) : es ≠ [] := by
  cases h with
  | one _ => exact List.cons_ne_nil _ _
  | dot _ _ => exact List.append_ne_nil_of_right_ne_nil _ (List.cons_ne_nil _ _)

theorem concatTree_eq {es : List Expr} (h : 2 ≤ es.length) : concatTree es = .concat es := by
  match es, h with
  | _ :: _ :: _, _ => rfl

/-- **A concatenation is a list of operands and its tree.** -/
theorem concat_iff : Concat o n ts e ↔ ∃ es, Operands o n ts es ∧ e = concatTree es := by
  constructor
  · rintro (h | ⟨h, hes⟩)
    · exact ⟨[e], .one h, rfl⟩
    · exact ⟨_, h, (concatTree_eq hes).symm⟩
  · rintro ⟨es, h, rfl⟩
    cases h with
    | one h => exact .one h
    | @dot _ ts us es e h h' =>
      have hes : 2 ≤ (es ++ [e]).length := by
        have := List.length_pos_iff.2 h.ne_nil
        rw [List.length_append, List.length_singleton]
        omega
      rw [concatTree_eq hes]
      exact .many (.dot h h') hes

end Phrase

end RequestCondition

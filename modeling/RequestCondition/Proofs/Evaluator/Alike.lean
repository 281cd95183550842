import Mathlib.Data.List.Forall2
import RequestCondition.Function.Builtin
import RequestCondition.Proofs.Decimal.Value
import RequestCondition.Proofs.Evaluator.Actions

/-!
# Trees that are alike

Two trees are alike if they differ at most in the scales of their numbers.  The scale of a number
shows nowhere in an evaluation but in the value at its end: truth, text and order look at the value
that the number stands for.  So trees that are alike can be put in each other's place
(`eval_of_alike`).

Where an evaluation hands a number to a function, the function could tell the scales apart.  That it
does not is a property of the table, `FunctionTable.Respects`, and the built-in functions have it,
since they look at the texts of their arguments only (`builtin_respects`).

The relation between the two evaluations is put together in three layers.

* **Values** are alike if they are equal, or numbers with one value.  What is used of this are four
  equations: the text, the truth, the number and the warnings of two such values are the same.
* **Walks** are alike if their results are, they leave the same groups, and what happens on the way
  is the same event for event, up to the arguments of calls and what functions log about them.
* **Trees** are compared by a function that takes both apart (`Expr.alike`).  The induction is along
  that function (`evalsLike`), with one case for each pair of roots that it accepts.  An induction
  on one of the trees would have to find out in every case what the other one is.

The groups and the lookups come out equal and not merely alike: neither a group nor a reference has
a number in it.
-/

set_option autoImplicit false

namespace RequestCondition

/-! ## Values

Each lemma is about one way in which evaluation looks at a value. -/

/-- Equality of values, whatever the scales of numbers. -/
def Value.Like (v w : Value) : Prop := v.alike w = true

namespace Value.Like

variable {v w : Value}

theorem refl (v : Value) : v.Like v := by
  cases v with
  | number n => exact (Decimal.sameValue_iff n n).2 rfl
  | _ => exact beq_self_eq_true _

/-- The text of a number does not show zeros at its end. -/
theorem text_eq (h : v.Like w) : v.text = w.text := by
  cases v <;> cases w <;> simp only [Like, alike, Bool.false_eq_true] at h
  · rw [eq_of_beq h]
  · rw [text, text, (Decimal.normalize_eq_iff _ _).2 ((Decimal.sameValue_iff _ _).1 h)]
  · rw [eq_of_beq h]

/-- Truth depends on the value of a number. -/
theorem isTruthy_eq (h : v.Like w) : v.isTruthy = w.isTruthy := by
  cases v <;> cases w <;> simp only [Like, alike, Bool.false_eq_true] at h
  · rw [eq_of_beq h]
  · rw [isTruthy, isTruthy, Bool.eq_iff_iff, Bool.not_eq_true', Bool.not_eq_true',
      ← Bool.not_eq_true, ← Bool.not_eq_true, Decimal.isZero_iff, Decimal.isZero_iff,
      (Decimal.sameValue_iff _ _).1 h]
  · rw [eq_of_beq h]

/-- What is computed with are numbers of one value. -/
theorem toNumber_value_eq (h : v.Like w) : v.toNumber.value = w.toNumber.value := by
  cases v <;> cases w <;> simp only [Like, alike, Bool.false_eq_true] at h
  · rw [eq_of_beq h]
  · exact (Decimal.sameValue_iff _ _).1 h
  · rw [eq_of_beq h]

theorem numberWarnings_eq (h : v.Like w) : v.numberWarnings = w.numberWarnings := by
  cases v <;> cases w <;> simp only [Like, alike, Bool.false_eq_true] at h
  · rfl
  · rfl
  · rw [eq_of_beq h]

end Value.Like

namespace CmpOp

variable {v v' w w' : Value}

/-- A comparison does not see the scales. -/
theorem holds_eq (op : CmpOp) (hv : v.Like v') (hw : w.Like w') :
    op.holds v w = op.holds v' w' := by
  rw [holds, holds, Decimal.cmp_eq_compare, Decimal.cmp_eq_compare, hv.toNumber_value_eq,
    hw.toNumber_value_eq, hv.text_eq, hw.text_eq]

/-- Warnings are about texts, and numbers give none. -/
theorem warnings_eq (op : CmpOp) (hv : v.Like v') (hw : w.Like w') :
    op.warnings v w = op.warnings v' w' := by
  rw [warnings, warnings, hv.numberWarnings_eq, hw.numberWarnings_eq]

end CmpOp

/-! ## Outcomes

Errors are the same and not only of one kind, because no error has a number in it that could be
written at another scale. -/

/-- Results that are related, or the same error. -/
inductive ResultsLike {α β : Type} (R : α → β → Prop) :
    Except EvalError α → Except EvalError β → Prop
  | ok {a : α} {b : β} (h : R a b) : ResultsLike R (.ok a) (.ok b)
  | error (e : EvalError) : ResultsLike R (.error e) (.error e)

/-- The same event; or the call of the same function with values that are alike, which may log what
it likes. -/
inductive Event.Like : Event → Event → Prop
  | same (ev : Event) : Like ev ev
  | call (name : String) {args args' : List Value} (h : List.Forall₂ Value.Like args args')
      (log log' : List LogRecord) : Like (.call name args log) (.call name args' log')

/-- Outcomes with related results that leave the same groups behind events that are alike. -/
structure Outcome.Like {α β : Type} (R : α → β → Prop) (o : Outcome α) (o' : Outcome β) : Prop where
  result : ResultsLike R o.result o'.result
  captures : o.captures = o'.captures
  events : List.Forall₂ Event.Like o.events o'.events

/-- Walks whose outcomes are alike wherever they start. -/
def Walk.Like {α β : Type} (R : α → β → Prop) (w : Walk α) (w' : Walk β) : Prop :=
  ∀ c, (w c).Like R (w' c)

/-- Events that are alike ask for the same variable, if for any. -/
theorem Event.Like.lookup?_eq {ev ev' : Event} (h : ev.Like ev') : ev.lookup? = ev'.lookup? := by
  cases h <;> rfl

theorem Outcome.Like.lookups_eq {α β : Type} {R : α → β → Prop} {o : Outcome α} {o' : Outcome β}
    (h : o.Like R o') : o.lookups = o'.lookups := by
  have hlookups {es es' : List Event} (hes : List.Forall₂ Event.Like es es') :
      es.filterMap Event.lookup? = es'.filterMap Event.lookup? := by
    induction hes with
    | nil => rfl
    | cons hev _ ih => rw [List.filterMap_cons, List.filterMap_cons, hev.lookup?_eq, ih]
  exact hlookups h.events

namespace Walk.Like

variable {α β : Type} {R : α → β → Prop}

theorem pure {a : α} {b : β} (h : R a b) : Walk.Like R (Pure.pure a) (Pure.pure b) :=
  fun _ ↦ ⟨.ok h, rfl, .nil⟩

/-- **Walks that are alike go on alike**, if they do from values that are related. -/
theorem bind {α' β' : Type} {S : α' → β' → Prop} {w : Walk α} {w' : Walk β} {f : α → Walk α'}
    {f' : β → Walk β'} (hw : Walk.Like R w w') (hf : ∀ a b, R a b → Walk.Like S (f a) (f' b)) :
    Walk.Like S (w >>= f) (w' >>= f') := by
  intro c
  obtain ⟨hr, hc, hes⟩ := hw c
  rcases ho : w c with ⟨r, c₁, es₁⟩
  rcases ho' : w' c with ⟨r', c₁', es₁'⟩
  rw [ho, ho'] at hr hc hes
  simp only at hr hc hes
  subst hc
  cases hr with
  | error e =>
    rw [Walk.bind_error f ho, Walk.bind_error f' ho']
    exact ⟨.error e, rfl, hes⟩
  | @ok a b h =>
    rw [Walk.bind_ok f ho, Walk.bind_ok f' ho']
    obtain ⟨hr₂, hc₂, hes₂⟩ := hf a b h c₁
    exact ⟨hr₂, hc₂, List.rel_append hes hes₂⟩

theorem refl {R : α → α → Prop} (hR : ∀ a, R a a) (w : Walk α) : Walk.Like R w w := by
  intro c
  refine ⟨?_, rfl, List.forall₂_same.2 fun ev _ ↦ .same ev⟩
  cases (w c).result with
  | ok a => exact .ok (hR a)
  | error e => exact .error e

end Walk.Like

/-! ## Functions

A table may be any, so what is asked of it is a hypothesis; here it is shown for the table of
built-in functions, on any file system. -/

/-- A body that gives results that are alike for arguments that are alike. -/
def FunctionBody.Respects (b : FunctionBody) : Prop :=
  ∀ args args', List.Forall₂ Value.Like args args' → args.length = b.arity →
    ∀ reply ∈ b.run args, ∀ reply' ∈ b.run args', ResultsLike Value.Like reply.result reply'.result

/-- A table whose functions give results that are alike for arguments that are alike. -/
def FunctionTable.Respects (t : FunctionTable) : Prop :=
  ∀ name f, t.find? name = some f → f.body.Respects

/-- A call with arguments that are alike, by name: an unknown function and a wrong number are the
same error. -/
theorem FunctionTable.Respects.call {t : FunctionTable} (h : t.Respects) (name : String)
    {args args' : List Value} (hargs : List.Forall₂ Value.Like args args') :
    ResultsLike Value.Like (t.call name args).result (t.call name args').result := by
  rw [FunctionTable.call, FunctionTable.call]
  cases hf : t.find? name with
  | none => exact .error _
  | some f =>
    have hlen := hargs.length_eq
    by_cases h₁ : args.length = f.arity
    · exact h name f hf args args' hargs h₁ _ (f.run_eq_some_call h₁) _
        (f.run_eq_some_call (hlen ▸ h₁))
    · simp only [f.call_of_length_ne h₁, f.call_of_length_ne (hlen ▸ h₁), hlen]
      exact .error _

/-! ### The built-in functions -/

/-- A body that looks at the texts of its arguments only. -/
def FunctionBody.ReadsTexts (b : FunctionBody) : Prop :=
  ∀ args args', args.map Value.text = args'.map Value.text → b.run args = b.run args'

theorem map_text_eq {vs ws : List Value} (h : List.Forall₂ Value.Like vs ws) :
    vs.map Value.text = ws.map Value.text := by
  induction h with
  | nil => rfl
  | cons hv _ ih => rw [List.map_cons, List.map_cons, hv.text_eq, ih]

/-- Values that are alike have one text, so the reply is one and the same. -/
theorem FunctionBody.ReadsTexts.respects {b : FunctionBody} (h : b.ReadsTexts) : b.Respects := by
  intro args args' hargs _ reply hr reply' hr'
  rw [h args args' (map_text_eq hargs)] at hr
  cases Option.mem_unique hr hr'
  cases reply.result with
  | ok v => exact .ok (.refl v)
  | error e => exact .error e

namespace Builtin

theorem ofText_readsTexts (n : Nat) (f : String → Reply) :
    (FunctionBody.mk n (ofText f)).ReadsTexts := by
  have hrun (args : List Value) : ofText f args = (args.map Value.text)[0]?.map f := by
    simp [ofText, Function.comp_def]
  intro args args' h
  simp only [hrun, h]

theorem ofTexts_readsTexts (n : Nat) (f : String → String → Reply) :
    (FunctionBody.mk n (ofTexts f)).ReadsTexts := by
  have hrun (args : List Value) : ofTexts f args =
      (args.map Value.text)[0]?.bind fun s ↦ (args.map Value.text)[1]?.map (f s) := by
    simp [ofTexts, Option.bind_map, Function.comp_def]
  intro args args' h
  simp only [hrun, h]

theorem bodies_readsTexts (fs : FileSystem) : ∀ entry ∈ bodies fs, entry.2.ReadsTexts := by
  simp only [bodies, value, test, test₂, List.forall_mem_cons, ofText_readsTexts,
    ofTexts_readsTexts, true_and]
  exact List.forall_mem_nil _

/-- **The built-in functions cannot tell values apart that are alike.** -/
theorem builtin_respects (fs : FileSystem) : (FunctionTable.builtin fs).Respects :=
  fun _ _ h ↦ (bodies_readsTexts fs _ (FunctionTable.mem_bodies_of_find? h)).respects

end Builtin

namespace Environment

variable {env : Environment}

/-- A search is made in the text of a value. -/
theorem search_like (regex : RegexLiteral) {v w : Value} (h : v.Like w) :
    Walk.Like Eq (env.search regex v.text) (env.search regex w.text) := by
  rw [h.text_eq]
  exact .refl Eq.refl _

theorem warn_like (op : CmpOp) {v v' w w' : Value} (hv : v.Like v') (hw : w.Like w') :
    Walk.Like Eq (Walk.tell ((op.warnings v w).map .warning))
      (Walk.tell ((op.warnings v' w').map .warning)) := by
  rw [op.warnings_eq hv hw]
  exact .refl Eq.refl _

theorem call_like (hfun : env.functions.Respects) (name : String) {args args' : List Value}
    (h : List.Forall₂ Value.Like args args') :
    Walk.Like Value.Like (env.call name args) (env.call name args') :=
  fun _ ↦ ⟨hfun.call name h, rfl, .cons (.call name h _ _) .nil⟩

theorem pure_boolean_like {b b' : Bool} (h : b = b') :
    Walk.Like Value.Like (pure (.boolean b)) (pure (.boolean b')) :=
  .pure (h ▸ .refl _)

/-! ## Trees

The two statements of the induction are about trees and about lists of trees. -/

/-- Two trees that are alike, as an evaluation meets them. -/
def EvalsLike (env : Environment) (e e' : Expr) : Prop :=
  e.alike e' = true → Walk.Like Value.Like (env.eval e) (env.eval e')

/-- Two lists of trees that are alike: evaluated one after another, and searched for a text. -/
def EvalsAllLike (env : Environment) (es es' : List Expr) : Prop :=
  Expr.alikeAll es es' = true →
    Walk.Like (List.Forall₂ Value.Like) (env.evalAll es) (env.evalAll es') ∧
      ∀ needle, Walk.Like Eq (env.evalIn needle es) (env.evalIn needle es')

/-- By induction on the comparison of two trees, since there the trees are taken apart together. -/
theorem evalsLike (hfun : env.functions.Respects) :
    (∀ e e', EvalsLike env e e') ∧ ∀ es es', EvalsAllLike env es es' := by
  refine Expr.alike.mutual_induct (EvalsLike env) (EvalsAllLike env) ?boolean ?number ?string
    ?reference ?backref ?not ?logical ?comparison ?isMatch ?isIn ?concat ?call ?unaryTest
    ?binaryTest ?others ?nil ?cons ?lengths
  case boolean =>
    intro a b h
    rw [Expr.alike, beq_iff_eq] at h
    rw [eval, eval]
    exact pure_boolean_like h
  case number =>
    intro a b h
    rw [Expr.alike] at h
    rw [eval, eval]
    exact .pure h
  case string =>
    intro a b h
    rw [Expr.alike, beq_iff_eq] at h
    rw [h]
    exact .refl .refl _
  case reference =>
    intro a b h
    rw [Expr.alike, beq_iff_eq] at h
    rw [h]
    exact .refl .refl _
  case backref =>
    intro a b h
    rw [Expr.alike, beq_iff_eq] at h
    rw [h]
    exact .refl .refl _
  case not =>
    intro a b ih h
    rw [Expr.alike] at h
    rw [eval, eval]
    exact .bind (ih h) fun v w hv ↦ pure_boolean_like (by rw [hv.isTruthy_eq])
  case logical =>
    intro o a b o' a' b' iha ihb h
    simp only [Expr.alike, Bool.and_eq_true, beq_iff_eq] at h
    obtain ⟨⟨rfl, ha⟩, hb⟩ := h
    rw [eval, eval]
    refine .bind (iha ha) fun v w hv ↦ ?_
    rw [hv.isTruthy_eq]
    split
    · exact .refl .refl _
    · exact .bind (ihb hb) fun v w hv ↦ pure_boolean_like hv.isTruthy_eq
  case comparison =>
    intro o a b o' a' b' iha ihb h
    simp only [Expr.alike, Bool.and_eq_true, beq_iff_eq] at h
    obtain ⟨⟨rfl, ha⟩, hb⟩ := h
    rw [eval, eval]
    refine .bind (iha ha) fun v v' hv ↦ .bind (ihb hb) fun w w' hw ↦ ?_
    exact .bind (warn_like o hv hw) fun _ _ _ ↦ pure_boolean_like (o.holds_eq hv hw)
  case isMatch =>
    intro n a r n' a' r' ih h
    simp only [Expr.alike, Bool.and_eq_true, beq_iff_eq] at h
    obtain ⟨⟨rfl, ha⟩, rfl⟩ := h
    rw [eval, eval]
    refine .bind (ih ha) fun v w hv ↦ ?_
    exact .bind (search_like r hv) fun b b' hb ↦ pure_boolean_like (by rw [hb])
  case isIn =>
    intro a as b bs ih ihs h
    rw [Expr.alike, Bool.and_eq_true] at h
    rw [eval, eval]
    refine .bind (ih h.1) fun v w hv ↦ ?_
    rw [hv.text_eq]
    exact .bind ((ihs h.2).2 w.text) fun b b' hb ↦ pure_boolean_like hb
  case concat =>
    intro as bs ihs h
    rw [Expr.alike] at h
    rw [eval, eval]
    refine .bind (ihs h).1 fun vs ws hvs ↦ ?_
    rw [map_text_eq hvs]
    exact .refl .refl _
  case call =>
    intro f as g bs ihs h
    simp only [Expr.alike, Bool.and_eq_true, beq_iff_eq] at h
    obtain ⟨rfl, hs⟩ := h
    rw [eval, eval]
    exact .bind (ihs hs).1 fun vs ws hvs ↦ call_like hfun f hvs
  case unaryTest =>
    intro o a o' a' ih h
    simp only [Expr.alike, Bool.and_eq_true, beq_iff_eq] at h
    obtain ⟨rfl, ha⟩ := h
    rw [eval, eval]
    exact .bind (ih ha) fun v w hv ↦ call_like hfun o (.cons hv .nil)
  case binaryTest =>
    intro o a b o' a' b' iha ihb h
    simp only [Expr.alike, Bool.and_eq_true, beq_iff_eq] at h
    obtain ⟨⟨rfl, ha⟩, hb⟩ := h
    rw [eval, eval]
    refine .bind (iha ha) fun v v' hv ↦ .bind (ihb hb) fun w w' hw ↦ ?_
    exact call_like hfun o (.cons hv (.cons hw .nil))
  case others =>
    -- trees of two kinds are not alike
    intro e e' _ _ _ _ _ _ _ _ _ _ _ _ _ _ h
    simp_all [Expr.alike]
  case nil =>
    intro _
    rw [evalAll]
    refine ⟨.pure .nil, fun needle ↦ .refl Eq.refl _⟩
  case cons =>
    intro a as b bs ih ihs h
    rw [Expr.alikeAll, Bool.and_eq_true] at h
    rw [evalAll, evalAll]
    constructor
    · refine .bind (ih h.1) fun v w hv ↦ .bind (ihs h.2).1 fun vs ws hvs ↦ ?_
      exact .pure (.cons hv hvs)
    · intro needle
      rw [evalIn, evalIn]
      refine .bind (ih h.1) fun v w hv ↦ ?_
      rw [hv.text_eq]
      split
      · exact .refl Eq.refl _
      · exact (ihs h.2).2 needle
  case lengths =>
    intro es es' _ _ h
    simp_all [Expr.alikeAll]

/-- **Trees that are alike can be put in each other's place.**  Where the functions respect it, both
evaluations end with values that are alike, of one text and one truth, or with the same error; they
leave the same groups and make the same lookups. -/
theorem eval_of_alike (env : Environment) (hfun : env.functions.Respects) {e e' : Expr}
    (h : e.alike e' = true) (start : Captures) :
    ((∃ v v', (env.eval e start).result = .ok v ∧ (env.eval e' start).result = .ok v' ∧
        v.alike v' = true ∧ v.text = v'.text ∧ v.isTruthy = v'.isTruthy) ∨
      ∃ err, (env.eval e start).result = .error err ∧ (env.eval e' start).result = .error err) ∧
    (env.eval e start).captures = (env.eval e' start).captures ∧
    (env.eval e start).lookups = (env.eval e' start).lookups := by
  have hlike := (evalsLike hfun).1 e e' h start
  refine ⟨?_, hlike.captures, hlike.lookups_eq⟩
  have hresult := hlike.result
  generalize (env.eval e start).result = r at hresult ⊢
  generalize (env.eval e' start).result = r' at hresult ⊢
  cases hresult with
  | @ok v v' hv =>
    exact .inl ⟨v, v', rfl, rfl, hv, Value.Like.text_eq hv, Value.Like.isTruthy_eq hv⟩
  | error err => exact .inr ⟨err, rfl, rfl⟩

/-- The same number at two scales, in a call of `strlen` and as an argument of a concatenation. -/
theorem eval_of_alike_scales :
    let tree (n : Decimal) : Expr :=
      .call "strlen" [.concat [.number n, .text "x", .variable ⟨"A", []⟩]]
    let long : Decimal := ⟨150, 2, by decide, by decide⟩
    let short : Decimal := ⟨15, 1, by decide, by decide⟩
    let env : Environment := { context := fun _ ↦ .unresolved, functions := .builtin .empty }
    env.functions.Respects ∧ (tree long).alike (tree short) = true ∧
      (env.eval (tree short) .none).result = .ok (.number (.ofNat 4)) ∧
      (∃ v, (env.eval (tree long) .none).result = .ok v ∧ v.text = "4") := by
  intro tree long short env
  have hfun : env.functions.Respects := Builtin.builtin_respects .empty
  have halike : (tree long).alike (tree short) = true := by decide
  have hshort : (env.eval (tree short) .none).result = .ok (.number (.ofNat 4)) := by decide
  refine ⟨hfun, halike, hshort, ?_⟩
  rcases (eval_of_alike env hfun halike .none).1 with ⟨v, v', hv, hv', -, htext, -⟩ | ⟨err, -, he⟩
  · rw [hshort, Except.ok.injEq] at hv'
    exact ⟨v, hv, by rw [htext, ← hv']; decide⟩
  · rw [hshort] at he
    cases he

end Environment

end RequestCondition

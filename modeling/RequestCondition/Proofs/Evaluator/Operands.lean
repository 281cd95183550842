import Mathlib.Data.List.Basic
import RequestCondition.Evaluator.Basic

/-!
# A tree and its operands

Every tree is evaluated in the same way, whatever stands at its root: its operands one after
another, until their values decide it, and then what the root makes of them (`eval_eq_operands`).
What is particular to a root is said in three functions.  `Expr.operands` are the trees under it,
`Expr.decidedBy` tells whether values decide it, and `Environment.conclude` makes its value.

What follows is about all roots at once.  An operand is come to where the ones in front of it reach
values that do not decide (`Environment.comesTo?`), and the evaluation depends on it there and
nowhere else (`eval_withOperands`).

There are fourteen kinds of roots, and five ways in which they go about their operands: they have
none, one or two of them, a list, or a list that is searched.  A statement about trees that has to
be proved for each kind would have fourteen cases, with the same argument in most of them.  With
`eval_eq_operands` there is one case, and the kinds come up only where the value of a tree is in
question.

Two kinds of roots can be decided before all operands have values.  A logical operator is decided by
its left side, and a list by an element with the text of the needle.  For all other roots
`decidedBy` is false, and to go through the operands as long as nothing is decided is to go through
all of them (`evalUntil_eq_evalAll`).

`approach e i` is the evaluation of `e` up to its operand `i`.  Whether the operand is come to, and
with which groups at hand, can be told from it; and since the evaluation is the approach and what
comes behind (`eval_eq_approach`), an induction on `i` goes along the operands.
-/

set_option autoImplicit false

namespace RequestCondition

namespace Expr

/-- The trees right under the root. -/
def operands : Expr → List Expr
  | .boolean _ | .number _ | .string _ | .variable _ | .backref _ => []
  | .not a | .isMatch _ a _ | .unaryTest _ a => [a]
  | .logical _ a b | .comparison _ a b | .binaryTest _ a b => [a, b]
  | .isIn a as => a :: as
  | .concat as | .call _ as => as

/-- The same root with other trees under it, if they are as many. -/
def withOperands : Expr → List Expr → Expr
  | .not _, [a] => .not a
  | .logical op _ _, [a, b] => .logical op a b
  | .comparison op _ _, [a, b] => .comparison op a b
  | .isMatch negated _ regex, [a] => .isMatch negated a regex
  | .isIn _ _, a :: as => .isIn a as
  | .concat _, as => .concat as
  | .call name _, as => .call name as
  | .unaryTest op _, [a] => .unaryTest op a
  | .binaryTest op _ _, [a, b] => .binaryTest op a b
  | e, _ => e

/-- Whether the values of the operands in front decide a tree. -/
def decidedBy : Expr → List Value → Bool
  | .logical op _ _, [v] => op.decidedBy v.isTruthy
  | .isIn _ _, v :: ws => ws.any (·.text == v.text)
  | _, _ => false

theorem decidedBy_nil (e : Expr) : e.decidedBy [] = false := by
  cases e <;> rfl

theorem sizeOf_lt_of_mem_operands {a e : Expr} (h : a ∈ e.operands) : sizeOf a < sizeOf e := by
  cases e with
  | not b | isMatch _ b _ | unaryTest _ b =>
    cases List.mem_singleton.1 h
    simp only [not.sizeOf_spec, isMatch.sizeOf_spec, unaryTest.sizeOf_spec]
    omega
  | logical _ b b' | comparison _ b b' | binaryTest _ b b' =>
    simp only [logical.sizeOf_spec, comparison.sizeOf_spec, binaryTest.sizeOf_spec]
    simp only [operands, List.mem_cons, List.not_mem_nil, or_false] at h
    rcases h with rfl | rfl <;> omega
  | isIn b bs =>
    rw [isIn.sizeOf_spec]
    rcases List.mem_cons.1 h with rfl | h
    · omega
    · have := List.sizeOf_lt_of_mem h
      omega
  | concat bs | call _ bs =>
    have : sizeOf a < sizeOf bs := List.sizeOf_lt_of_mem h
    simp only [concat.sizeOf_spec, call.sizeOf_spec]
    omega
  | _ => cases h

/-- Induction over trees, with all operands at once. -/
theorem induction_operands {P : Expr → Prop} (h : ∀ e : Expr, (∀ a ∈ e.operands, P a) → P e)
    (e : Expr) : P e :=
  h e fun a ha ↦
    have := sizeOf_lt_of_mem_operands ha
    induction_operands h a
termination_by sizeOf e

end Expr

namespace Environment

variable (env : Environment)

/-- Evaluates trees behind some others that have values, as long as the values do not decide. -/
def evalUntil (stop : List Value → Bool) (vs : List Value) : List Expr → Walk (List Value)
  | [] => pure vs
  | e :: es =>
    if stop vs then pure vs
    else do
      let v ← env.eval e
      evalUntil stop (vs ++ [v]) es

/-- What a root makes of the values of its operands. -/
def conclude : Expr → List Value → Walk Value
  | .boolean b, _ => pure (.boolean b)
  | .number n, _ => pure (.number n)
  | .string parts, _ => do
    let texts ← env.evalParts parts
    pure (.string (String.join texts))
  | .variable ref, _ => env.resolve ref
  | .backref n, _ => do
    let s ← Walk.backref n
    pure (.string s)
  | .not _, [v] => pure (.boolean !v.isTruthy)
  | .logical _ _ _, [v] => pure (.boolean v.isTruthy)
  | .logical _ _ _, [_, w] => pure (.boolean w.isTruthy)
  | .comparison op _ _, [v, w] => do
    Walk.tell ((op.warnings v w).map .warning)
    pure (.boolean (op.holds v w))
  | .isMatch negated _ regex, [v] => do
    let found ← env.search regex v.text
    pure (.boolean (found != negated))
  | .isIn needle list, vs => pure (.boolean ((Expr.isIn needle list).decidedBy vs))
  | .concat _, vs => pure (.string (String.join (vs.map Value.text)))
  | .call name _, vs => env.call name vs
  | .unaryTest op _, vs => env.call op vs
  | .binaryTest op _ _, vs => env.call op vs
  | _, _ => pure default

variable {env}

/-- Other trees under a root leave the root as it is. -/
theorem withOperands_root {e : Expr} {es : List Expr} (h : es.length = e.operands.length) :
    (e.withOperands es).operands = es ∧ (e.withOperands es).decidedBy = e.decidedBy ∧
      ∀ env : Environment, env.conclude (e.withOperands es) = env.conclude e := by
  cases e with
  | not _ | isMatch _ _ _ | unaryTest _ _ =>
    obtain ⟨a, rfl⟩ := List.length_eq_one_iff.1 h
    refine ⟨rfl, ?_, fun env ↦ ?_⟩ <;> funext vs <;> rcases vs with _ | ⟨v, _ | ⟨w, ws⟩⟩ <;> rfl
  | logical _ _ _ | comparison _ _ _ | binaryTest _ _ _ =>
    obtain ⟨a, b, rfl⟩ := List.length_eq_two.1 h
    refine ⟨rfl, ?_, fun env ↦ ?_⟩ <;> funext vs <;>
      rcases vs with _ | ⟨v, _ | ⟨w, _ | ⟨u, us⟩⟩⟩ <;> rfl
  | isIn _ _ =>
    obtain ⟨a, as, rfl⟩ := List.exists_cons_of_length_eq_add_one h
    refine ⟨rfl, ?_, fun env ↦ ?_⟩ <;> funext vs <;> cases vs <;> rfl
  | concat _ | call _ _ => refine ⟨rfl, ?_, fun env ↦ ?_⟩ <;> funext vs <;> cases vs <;> rfl
  | _ =>
    rw [List.length_eq_zero_iff.1 h]
    exact ⟨rfl, rfl, fun _ ↦ rfl⟩

theorem evalUntil_of_stop {stop : List Value → Bool} {vs : List Value} (h : stop vs = true)
    (es : List Expr) : env.evalUntil stop vs es = pure vs := by
  cases es with
  | nil => rw [evalUntil]
  | cons e es => rw [evalUntil, if_pos h]

theorem evalUntil_cons {stop : List Value → Bool} {vs : List Value} (h : stop vs = false)
    (e : Expr) (es : List Expr) :
    env.evalUntil stop vs (e :: es) = env.eval e >>= fun v ↦ env.evalUntil stop (vs ++ [v]) es := by
  rw [evalUntil, if_neg (Bool.eq_false_iff.1 h)]

/-- To go through operands is to go through the first and then through the others. -/
theorem evalUntil_append (stop : List Value → Bool) (vs : List Value) (es es' : List Expr) :
    env.evalUntil stop vs (es ++ es') =
      env.evalUntil stop vs es >>= fun ws ↦ env.evalUntil stop ws es' := by
  induction es generalizing vs with
  | nil => rw [List.nil_append, evalUntil, pure_bind]
  | cons e es ih =>
    cases h : stop vs with
    | true => rw [evalUntil_of_stop h, evalUntil_of_stop h, pure_bind, evalUntil_of_stop h]
    | false =>
      rw [List.cons_append, evalUntil_cons h, evalUntil_cons h, bind_assoc]
      exact congrArg _ (funext fun v ↦ ih _)

/-- The same for trees that are all evaluated. -/
theorem evalAll_append (es es' : List Expr) :
    env.evalAll (es ++ es') =
      env.evalAll es >>= fun vs ↦ env.evalAll es' >>= fun vs' ↦ pure (vs ++ vs') := by
  induction es with
  | nil => simp [evalAll]
  | cons e es ih => simp [evalAll, ih]

/-- To search a list is to search its front, and the rest if nothing is found there. -/
theorem evalIn_append (text : String) (es es' : List Expr) :
    env.evalIn text (es ++ es') = env.evalIn text es >>= fun found ↦
      if found then pure true else env.evalIn text es' := by
  induction es with
  | nil => simp [evalIn]
  | cons e es ih =>
    rw [List.cons_append, evalIn, evalIn, bind_assoc]
    refine congrArg _ (funext fun v ↦ ?_)
    split
    · rw [pure_bind, if_pos rfl]
    · exact ih

/-- Nothing is decided before all operands have values. -/
theorem evalUntil_eq_evalAll {stop : List Value → Bool} (h : ∀ vs, stop vs = false)
    (vs : List Value) (es : List Expr) :
    env.evalUntil stop vs es = (vs ++ ·) <$> env.evalAll es := by
  induction es generalizing vs with
  | nil => rw [evalUntil, evalAll, map_pure, List.append_nil]
  | cons e es ih =>
    rw [evalUntil_cons (h vs), evalAll, map_bind]
    refine congrArg _ (funext fun v ↦ ?_)
    rw [ih, bind_pure_comp, Functor.map_map]
    simp only [List.append_assoc, List.singleton_append]

/-- The text looked for decides. -/
theorem evalUntil_eq_evalIn (needle : Expr) (list : List Expr) (v : Value) {ws : List Value}
    (h : (Expr.isIn needle list).decidedBy (v :: ws) = false) (es : List Expr) :
    (Expr.isIn needle list).decidedBy <$>
      env.evalUntil (Expr.isIn needle list).decidedBy (v :: ws) es = env.evalIn v.text es := by
  induction es generalizing ws with
  | nil => rw [evalUntil, evalIn, map_pure, h]
  | cons e es ih =>
    rw [evalUntil_cons h, evalIn, map_bind]
    refine congrArg _ (funext fun w ↦ ?_)
    have hw : (Expr.isIn needle list).decidedBy (v :: (ws ++ [w])) = (w.text == v.text) := by
      simp only [Expr.decidedBy] at h ⊢
      rw [List.any_append, h, Bool.false_or, List.any_cons, List.any_nil, Bool.or_false]
    rw [List.cons_append]
    split
    case isTrue heq => rw [evalUntil_of_stop (hw.trans heq), map_pure, hw, heq]
    case isFalse heq => exact ih (hw.trans (Bool.eq_false_iff.2 heq))

/-- **A tree is evaluated operand by operand.**  This is the one place where the evaluation of every
form of tree is looked at.  Behind it a tree is a list of operands, a test that stops at one of
them, and what is made of the values. -/
theorem eval_eq_operands (e : Expr) :
    env.eval e = env.evalUntil e.decidedBy [] e.operands >>= env.conclude e := by
  cases e with
  | boolean _ | number _ | string _ | «variable» _ | backref _ =>
    rw [eval, Expr.operands, evalUntil, pure_bind, conclude]
  | not a | isMatch _ a _ | unaryTest _ a =>
    rw [eval, Expr.operands, evalUntil_cons rfl, bind_assoc]
    refine congrArg _ (funext fun v ↦ ?_)
    rw [evalUntil, pure_bind, List.nil_append, conclude]
  | logical op a b =>
    rw [eval, Expr.operands, evalUntil_cons rfl, bind_assoc]
    refine congrArg _ (funext fun v ↦ ?_)
    rw [List.nil_append]
    split
    case isTrue h => rw [evalUntil_of_stop h, pure_bind, conclude]
    case isFalse h =>
      rw [evalUntil_cons (Bool.eq_false_iff.2 h), bind_assoc]
      refine congrArg _ (funext fun w ↦ ?_)
      rw [evalUntil, pure_bind, List.singleton_append, conclude]
  | comparison _ a b | binaryTest _ a b =>
    rw [eval, Expr.operands, evalUntil_cons rfl, bind_assoc]
    refine congrArg _ (funext fun v ↦ ?_)
    rw [List.nil_append, evalUntil_cons rfl, bind_assoc]
    refine congrArg _ (funext fun w ↦ ?_)
    rw [evalUntil, pure_bind, List.singleton_append, conclude]
  | isIn needle list =>
    rw [eval, Expr.operands, evalUntil_cons rfl, bind_assoc]
    refine congrArg _ (funext fun v ↦ ?_)
    have h : (Expr.isIn needle list).decidedBy [v] = false := rfl
    rw [List.nil_append, ← evalUntil_eq_evalIn needle list v h, bind_map_left]
    rfl
  | concat parts =>
    have h (vs : List Value) : (Expr.concat parts).decidedBy vs = false := by cases vs <;> rfl
    rw [eval, Expr.operands, evalUntil_eq_evalAll h, bind_map_left]
    rfl
  | call name args =>
    have h (vs : List Value) : (Expr.call name args).decidedBy vs = false := by cases vs <;> rfl
    rw [eval, Expr.operands, evalUntil_eq_evalAll h, bind_map_left]
    rfl

/-! ## Coming to an operand

One step of the approach evaluates an operand, or nothing if it is decided that it is not needed. -/

variable (env)

/-- The values of the operands in front of one, or of fewer where these decide. -/
def approach (e : Expr) (i : Nat) : Walk (List Value) :=
  env.evalUntil e.decidedBy [] (e.operands.take i)

/-- The groups at hand where the evaluation of a tree comes to an operand, if it does. -/
def comesTo? (e : Expr) (i : Nat) (c : Captures) : Option Captures :=
  match env.approach e i c with
  | ⟨.ok vs, c', _⟩ => if e.decidedBy vs then none else some c'
  | ⟨.error _, _, _⟩ => none

variable {env} {e : Expr} {i : Nat} {c c' : Captures}

theorem comesTo?_of_ok {vs : List Value} {evs : List Event}
    (h : env.approach e i c = ⟨.ok vs, c', evs⟩) :
    env.comesTo? e i c = if e.decidedBy vs then none else some c' := by
  rw [comesTo?, h]

theorem comesTo?_eq_some_iff : env.comesTo? e i c = some c' ↔
    ∃ vs evs, env.approach e i c = ⟨.ok vs, c', evs⟩ ∧ e.decidedBy vs = false := by
  rw [comesTo?]
  rcases env.approach e i c with ⟨_ | vs, c₁, evs⟩
  · simp
  · cases h : e.decidedBy vs <;> simp [h]

theorem comesTo?_eq_none_iff {vs : List Value} (h : (env.approach e i c).result = .ok vs) :
    env.comesTo? e i c = none ↔ e.decidedBy vs = true := by
  have happ : env.approach e i c =
      ⟨.ok vs, (env.approach e i c).captures, (env.approach e i c).events⟩ := by rw [← h]
  rw [comesTo?_of_ok happ]
  cases e.decidedBy vs <;> simp

/-- **An evaluation is the approach to an operand and what comes from there on.** -/
theorem eval_eq_approach (e : Expr) (i : Nat) :
    env.eval e = env.approach e i >>= fun vs ↦
      env.evalUntil e.decidedBy vs (e.operands.drop i) >>= env.conclude e := by
  rw [eval_eq_operands, ← bind_assoc, approach, ← evalUntil_append, List.take_append_drop]

theorem approach_succ {a : Expr} (h : e.operands[i]? = some a) :
    env.approach e (i + 1) = env.approach e i >>= fun vs ↦
      env.evalUntil e.decidedBy vs [a] := by
  rw [approach, List.take_add_one, h, Option.toList_some, evalUntil_append, approach]

/-- Where an operand is come to, it is evaluated next. -/
theorem approach_succ_of_some {a : Expr} (ha : e.operands[i]? = some a)
    (h : env.comesTo? e i c = some c') :
    ∃ vs evs, env.approach e i c = ⟨.ok vs, c', evs⟩ ∧
      env.approach e (i + 1) c = ⟨(vs ++ [·]) <$> (env.eval a c').result,
        (env.eval a c').captures, evs ++ (env.eval a c').events⟩ := by
  obtain ⟨vs, evs, happ, hd⟩ := comesTo?_eq_some_iff.1 h
  refine ⟨vs, evs, happ, ?_⟩
  rw [approach_succ ha, Walk.bind_ok _ happ, evalUntil_cons hd]
  rcases ho : env.eval a c' with ⟨_ | v, c'', evs'⟩
  · rw [Walk.bind_error _ ho]
    rfl
  · rw [Walk.bind_ok _ ho, evalUntil, Walk.pure_apply, List.append_nil]
    rfl

/-- Where it is not, nothing more happens. -/
theorem approach_succ_of_none {a : Expr} (ha : e.operands[i]? = some a)
    (h : env.comesTo? e i c = none) : env.approach e (i + 1) c = env.approach e i c := by
  rw [approach_succ ha]
  rcases happ : env.approach e i c with ⟨err | vs, c₁, evs⟩
  · rw [Walk.bind_error _ happ]
  · have hd : e.decidedBy vs = true := (comesTo?_eq_none_iff (by rw [happ])).1 h
    rw [Walk.bind_ok _ happ, evalUntil_of_stop hd, Walk.pure_apply, List.append_nil]

/-- What happens in an operand that is come to happens in the whole tree. -/
theorem events_of_operand {a : Expr} (ha : e.operands[i]? = some a)
    (h : env.comesTo? e i c = some c') : (env.eval a c').events <:+: (env.eval e c).events := by
  obtain ⟨vs, evs, -, happ⟩ := approach_succ_of_some ha h
  rw [eval_eq_approach e (i + 1)]
  rcases ho : env.eval a c' with ⟨_ | v, c'', evs'⟩
  · rw [ho] at happ
    rw [Walk.bind_error _ happ]
    exact (List.suffix_append evs evs').isInfix
  · rw [ho] at happ
    rw [Walk.bind_ok _ happ]
    exact List.infix_append evs evs' _

/-! ## Other operands

The root stays the same with other operands under it, and so the two approaches can be compared one
operand after another. -/

section

variable {es : List Expr}

/-- Operands that evaluate alike where they are come to make no difference to the approach. -/
theorem approach_withOperands (hlen : es.length = e.operands.length)
    (hes : ∀ i a b c', e.operands[i]? = some a → es[i]? = some b → env.comesTo? e i c = some c' →
      env.eval b c' = env.eval a c') {n : Nat} (hn : n ≤ e.operands.length) :
    env.approach (e.withOperands es) n c = env.approach e n c := by
  obtain ⟨hops, hdec, -⟩ := withOperands_root hlen
  induction n with
  | zero => rfl
  | succ n ih =>
    have happ := ih (Nat.le_of_succ_le hn)
    have hcomes : env.comesTo? (e.withOperands es) n c = env.comesTo? e n c := by
      rw [comesTo?, comesTo?, happ, hdec]
    have ha : e.operands[n]? = some e.operands[n] := List.getElem?_eq_getElem hn
    have hb : es[n]? = some es[n] := List.getElem?_eq_getElem (hlen ▸ hn)
    have hb' : (e.withOperands es).operands[n]? = some es[n] := by rw [hops, hb]
    cases h : env.comesTo? e n c with
    | none => rw [approach_succ_of_none hb' (hcomes.trans h), approach_succ_of_none ha h, happ]
    | some c' =>
      obtain ⟨vs, evs, heq, hsucc⟩ := approach_succ_of_some ha h
      obtain ⟨vs', evs', heq', hsucc'⟩ := approach_succ_of_some hb' (hcomes.trans h)
      obtain ⟨hvs, -, hevs⟩ := Outcome.mk.inj (heq.symm.trans (happ.symm.trans heq'))
      cases hvs
      rw [hsucc, hsucc', hes n _ _ c' ha hb h, hevs]

/-- **An evaluation depends on operands where it comes to them, and nowhere else.**  So of two trees
that differ in their operands it is enough to know that each operand has one evaluation in both,
from the slots that it is come to with. -/
theorem eval_withOperands (hlen : es.length = e.operands.length)
    (hes : ∀ i a b c', e.operands[i]? = some a → es[i]? = some b → env.comesTo? e i c = some c' →
      env.eval b c' = env.eval a c') : env.eval (e.withOperands es) c = env.eval e c := by
  obtain ⟨hops, hdec, hconcl⟩ := withOperands_root hlen
  have happ := approach_withOperands hlen hes (Nat.le_refl _)
  rw [eval_eq_approach e e.operands.length, eval_eq_approach _ e.operands.length, hops, hdec,
    hconcl, List.drop_length, ← hlen, List.drop_length, hlen]
  rcases ho : env.approach e e.operands.length c with ⟨_ | vs, c', evs⟩
  · rw [Walk.bind_error _ ho, Walk.bind_error _ (happ.trans ho)]
  · rw [Walk.bind_ok _ ho, Walk.bind_ok _ (happ.trans ho)]

end

end Environment

end RequestCondition

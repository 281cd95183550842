import Mathlib.Logic.Relation
import RequestCondition.Function.Builtin
import RequestCondition.Proofs.Evaluator.Skipping

/-!
# Other phrasings of a tree

A condition can be put in several ways: `!(a && b)` is `!a || !b`, and `!(x < y)` is `x >= y`.
That the truth is the same is a matter of truth tables.  Here the two are the same walk: they
ask the same questions in the same order, run into the same error, and pass the same groups on.

Since an evaluation sees of its operands only the walks that they are, trees that are the same
walk can be put in each other's place anywhere in a tree (`eval_graft`), and so can any number
of them one after another (`Expr.Replaces`).  `eval_rephrased` puts the two together.

Each of the equations is proved in the monad of walks, by its laws.  To group an operator
differently is to group binds differently; to move a negation inwards is to apply it to a value
earlier.  The operands are arbitrary walks in this, so that they may fail or make searches, and
in which order they do so is part of what is proved.

Some rephrasings are not here because they do change a walk.  `a && b` and `b && a` ask in
another order, and `a || a` asks twice.

A replacement in a tree is a graft: a path leads to the tree that is replaced, and another tree
is put at its end.  The relation `Replaces R` is the reflexive and transitive closure of one
replacement, for any relation `R` that says what may replace what, and it is used again for
strings.
-/

set_option autoImplicit false

namespace RequestCondition

/-- The operator that joins the negations, where this one joins what is negated. -/
def LogicalOp.dual : LogicalOp → LogicalOp
  | and => or
  | or => and

/-- The dual operator is decided by the negation of what decides this one. -/
theorem LogicalOp.dual_decidedBy_not (op : LogicalOp) (b : Bool) :
    op.dual.decidedBy (!b) = op.decidedBy b := by
  cases op <;> cases b <;> rfl

namespace CmpOp

variable {v w : Value}

/-- The operator of the same family that holds exactly where this one does not. -/
def complement (op : CmpOp) : CmpOp := ⟨op.numeric, op.relation.complement⟩

/-- Where a comparison does not hold, its complement does. -/
theorem holds_complement_eq_not (op : CmpOp) : op.complement.holds v w = !op.holds v w :=
  op.relation.holds_complement _

/-- What there is to warn about does not depend on the operator. -/
theorem warnings_complement (op : CmpOp) : op.complement.warnings v w = op.warnings v w := rfl

end CmpOp

/-! ## Replacing

What may be replaced by what is a relation between trees; where it is done is told by a path. -/

namespace Expr

variable {R : Expr → Expr → Prop} {e e' : Expr}

/-- One of the trees in a tree is replaced by another one that `R` allows in its place. -/
inductive ReplacesOne (R : Expr → Expr → Prop) (e : Expr) : Expr → Prop
  | graft {path : List Nat} {a b : Expr} (ha : e.subtree? path = some a) (h : R a b) :
      ReplacesOne R e (e.graft path b)

/-- Trees in a tree are replaced, any number of them one after another. -/
def Replaces (R : Expr → Expr → Prop) : Expr → Expr → Prop := Relation.ReflTransGen (ReplacesOne R)

/-- Two ways to put the same. -/
inductive Phrasing : Expr → Expr → Prop
  /-- `(a && b) && c` and `a && (b && c)`, and likewise with `||`. -/
  | assoc (op : LogicalOp) (a b c : Expr) :
      Phrasing (.logical op (.logical op a b) c) (.logical op a (.logical op b c))
  /-- `!(a && b)` and `!a || !b`, and the other way about. -/
  | notLogical (op : LogicalOp) (a b : Expr) :
      Phrasing (.not (.logical op a b)) (.logical op.dual (.not a) (.not b))
  /-- `!(a =~ r)` and `a !~ r`, and the other way about. -/
  | notMatch (negated : Bool) (a : Expr) (regex : RegexLiteral) :
      Phrasing (.not (.isMatch negated a regex)) (.isMatch (!negated) a regex)
  /-- `!(a < b)` and `a >= b`, and likewise with the other comparisons. -/
  | notComparison (op : CmpOp) (a b : Expr) :
      Phrasing (.not (.comparison op a b)) (.comparison op.complement a b)
  /-- A concatenation among the parts of another one, and its parts in its place. -/
  | concat (front parts back : List Expr) :
      Phrasing (.concat (front ++ .concat parts :: back)) (.concat (front ++ parts ++ back))

/-- The same put in two ways, whichever comes first. -/
def Rephrases (a b : Expr) : Prop := Phrasing a b ∨ Phrasing b a

end Expr

namespace Environment

variable {env : Environment} {e e' : Expr}

/-- A tree that is the same walk as another one can stand in its place. -/
theorem eval_graft {path : List Nat} {a b : Expr} (ha : e.subtree? path = some a)
    (h : env.eval b = env.eval a) : env.eval (e.graft path b) = env.eval e := by
  induction path generalizing e with
  | nil =>
    cases ha
    exact h
  | cons i path ih =>
    obtain ⟨o, ho, ha⟩ := Option.bind_eq_some_iff.1 ha
    funext c
    refine eval_graft_cons fun o' c' ho' _ ↦ ?_
    rw [ho] at ho'
    cases ho'
    exact congrFun (ih ha) c'

/-- Replacing by trees that are the same walk leaves the whole the same walk. -/
theorem eval_of_replaces {R : Expr → Expr → Prop} (hR : ∀ a b, R a b → env.eval b = env.eval a)
    (h : e.Replaces R e') : env.eval e' = env.eval e := by
  induction h with
  | refl => rfl
  | tail _ hone ih =>
    obtain ⟨ha, hab⟩ := hone
    rw [eval_graft ha (hR _ _ hab), ih]

/-! ## The same walk

One equation for each way to put the same. -/

/-- Chains of one operator can be grouped in either way. -/
theorem eval_assoc (op : LogicalOp) (a b c : Expr) :
    env.eval (.logical op (.logical op a b) c) = env.eval (.logical op a (.logical op b c)) := by
  simp only [eval, bind_assoc]
  refine congrArg _ (funext fun v ↦ ?_)
  by_cases hv : op.decidedBy v.isTruthy = true
  · simp only [if_pos hv, pure_bind]
    exact if_pos hv
  · simp only [if_neg hv, bind_assoc, pure_bind, Value.isTruthy_boolean]
    refine congrArg _ (funext fun w ↦ ?_)
    by_cases hw : op.decidedBy w.isTruthy = true
    · simp [if_pos hw]
    · simp [if_neg hw]

/-- A negation can be moved into a logical operator. -/
theorem eval_not_logical (op : LogicalOp) (a b : Expr) :
    env.eval (.not (.logical op a b)) = env.eval (.logical op.dual (.not a) (.not b)) := by
  simp only [eval, bind_assoc, pure_bind]
  refine congrArg _ (funext fun v ↦ ?_)
  simp only [Value.isTruthy_boolean, op.dual_decidedBy_not]
  cases op.decidedBy v.isTruthy <;> simp

/-- A negation can be moved into a match. -/
theorem eval_not_isMatch (negated : Bool) (a : Expr) (regex : RegexLiteral) :
    env.eval (.not (.isMatch negated a regex)) = env.eval (.isMatch (!negated) a regex) := by
  simp only [eval, bind_assoc, pure_bind]
  refine congrArg _ (funext fun v ↦ congrArg _ (funext fun found ↦ ?_))
  cases found <;> cases negated <;> rfl

/-- A negation can be moved into a comparison. -/
theorem eval_not_comparison (op : CmpOp) (a b : Expr) :
    env.eval (.not (.comparison op a b)) = env.eval (.comparison op.complement a b) := by
  simp only [eval, bind_assoc, pure_bind, Value.isTruthy_boolean, op.holds_complement_eq_not,
    op.warnings_complement]

/-- A concatenation among the parts of another can be taken apart. -/
theorem eval_concat (front parts back : List Expr) :
    env.eval (.concat (front ++ .concat parts :: back)) =
      env.eval (.concat (front ++ parts ++ back)) := by
  simp only [eval, evalAll, evalAll_append, bind_assoc, pure_bind]
  simp only [Value.text_string, List.map_append, List.map_cons, String.join_append,
    String.join_cons, String.append_assoc]

/-- **Two ways to put the same are the same walk.** -/
theorem eval_of_phrasing {a b : Expr} (h : a.Phrasing b) : env.eval a = env.eval b := by
  cases h with
  | assoc op a b c => exact eval_assoc op a b c
  | notLogical op a b => exact eval_not_logical op a b
  | notMatch negated a regex => exact eval_not_isMatch negated a regex
  | notComparison op a b => exact eval_not_comparison op a b
  | concat front parts back => exact eval_concat front parts back

/-- **How a condition is put makes no difference.**  Where trees in a tree are put in another way,
any number of them, the evaluation is the same: it has the same result, value or error, leaves the
same groups, and does the same things in the same order, so it makes the same lookups. -/
theorem eval_rephrased (env : Environment) {e e' : Expr} (h : e.Replaces Expr.Rephrases e')
    (start : Captures) :
    (env.eval e' start).result = (env.eval e start).result ∧
      (env.eval e' start).captures = (env.eval e start).captures ∧
      (env.eval e' start).lookups = (env.eval e start).lookups ∧
      (env.eval e' start).events = (env.eval e start).events := by
  have heval : env.eval e' = env.eval e := by
    refine eval_of_replaces (fun a b hab ↦ ?_) h
    obtain hab | hab := hab
    · exact (eval_of_phrasing hab).symm
    · exact eval_of_phrasing hab
  rw [heval]
  exact ⟨rfl, rfl, rfl, rfl⟩

/-- Inside an argument, `!(A && B == "x")` becomes `!A || !(B == "x")` and then
`!A || B != "x"`. -/
theorem eval_rephrased_argument :
    let a : Expr := .variable ⟨"A", []⟩
    let b : Expr := .variable ⟨"B", []⟩
    let e : Expr := .call "strlen"
      [.not (.logical .and a (.comparison ⟨false, .equal⟩ b (.text "x")))]
    let e' : Expr := .call "strlen"
      [.logical .or (.not a) (.comparison ⟨false, .notEqual⟩ b (.text "x"))]
    let env : Environment := {
      context := fun _ ↦ .resolved (.string "x"), functions := .builtin .empty }
    e.Replaces Expr.Rephrases e' ∧
      (env.eval e' .none).result = .ok (.number (.ofNat 5)) ∧
      (env.eval e' .none).lookups = [⟨"A", []⟩, ⟨"B", []⟩] := by
  intro a b e e' env
  let middle : Expr := .call "strlen"
    [.logical .or (.not a) (.not (.comparison ⟨false, .equal⟩ b (.text "x")))]
  have houter : e.ReplacesOne Expr.Rephrases middle :=
    @Expr.ReplacesOne.graft _ e [0] _ _ rfl (.inl (.notLogical _ _ _))
  have hinner : middle.ReplacesOne Expr.Rephrases e' :=
    @Expr.ReplacesOne.graft _ middle [0, 1] _ _ rfl (.inl (.notComparison _ _ _))
  have h : e.Replaces Expr.Rephrases e' := (Relation.ReflTransGen.single houter).tail hinner
  obtain ⟨hresult, -, hlookups, -⟩ := eval_rephrased env h .none
  exact ⟨h, hresult.trans (by decide), hlookups.trans (by decide)⟩

end Environment

end RequestCondition

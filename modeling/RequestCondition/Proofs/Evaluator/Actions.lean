import RequestCondition.Evaluator.Basic

/-!
# Evaluation in terms of its actions

Evaluating a tree does five things besides computing: it asks for a variable, calls a function,
makes a search, reads a group and warns.  `Actions m` says how they are done in a monad `m`, and
`Actions.eval` evaluates a tree with nothing but these.  With the actions of walks that is the
evaluator (`Environment.eval_eq`).

What the detour is good for is `Simulates.eval`.  Two ways to do the actions that are related one by
one are related on every tree, whatever the relation is, as long as it is kept by going on from one
step to the next.  So the induction over trees is done once, and what is particular to a property is
said about five actions.

It is used in three ways.

* With a relation between walks in one environment and walks in another.  What holds of the answers
  to the questions of a walk then holds of the walk, and what is written in the relation decides how
  much of the outcome is compared.
* With a relation between two monads.  An evaluation that keeps every search and one that keeps the
  last are compared in this way, although their states have nothing in common.
* With a relation that looks at one side only (`Environment.eval_of_actions`).  Then it is a
  property of walks, and every evaluation has it.

The relation has the type of values as a parameter, since steps give values, texts, truths and
lists.  It is about walks and not about outcomes: what a walk does from one slot cannot be said to
be kept by going on, because the walk that goes on starts from another.

Where two trees are in question, and not one tree in two environments, this does not apply.  The
trees have to be taken apart together then.
-/

set_option autoImplicit false

namespace RequestCondition

/-- How a monad does what evaluation needs. -/
structure Actions (m : Type → Type) where
  resolve : VarRef → m Value
  call : String → List Value → m Value
  search : RegexLiteral → String → m Bool
  backref : Nat → m String
  warn : List LogRecord → m Unit

namespace Actions

variable {m : Type → Type} [Monad m]

/-- The texts of the parts of a string. -/
def evalParts (a : Actions m) : List StringPart → m (List String)
  | [] => pure []
  | p :: ps => do
    let s ← match p with
      | .text t => pure t
      | .variable ref => do
        let v ← a.resolve ref
        pure v.text
      | .backref n => a.backref n
    let ss ← evalParts a ps
    pure (s :: ss)

mutual

/-- Evaluates a tree by the actions. -/
def eval (a : Actions m) : Expr → m Value
  | .boolean b => pure (.boolean b)
  | .number n => pure (.number n)
  | .string parts => do
    let texts ← evalParts a parts
    pure (.string (String.join texts))
  | .variable ref => a.resolve ref
  | .backref n => do
    let s ← a.backref n
    pure (.string s)
  | .not operand => do
    let v ← eval a operand
    pure (.boolean !v.isTruthy)
  | .logical op left right => do
    let v ← eval a left
    if op.decidedBy v.isTruthy then pure (.boolean v.isTruthy)
    else
      let w ← eval a right
      pure (.boolean w.isTruthy)
  | .comparison op left right => do
    let v ← eval a left
    let w ← eval a right
    a.warn (op.warnings v w)
    pure (.boolean (op.holds v w))
  | .isMatch negated subject regex => do
    let v ← eval a subject
    let found ← a.search regex v.text
    pure (.boolean (found != negated))
  | .isIn needle list => do
    let v ← eval a needle
    let found ← evalIn a v.text list
    pure (.boolean found)
  | .concat parts => do
    let vs ← evalAll a parts
    pure (.string (String.join (vs.map Value.text)))
  | .call name args => do
    let vs ← evalAll a args
    a.call name vs
  | .unaryTest op operand => do
    let v ← eval a operand
    a.call op [v]
  | .binaryTest op left right => do
    let v ← eval a left
    let w ← eval a right
    a.call op [v, w]

/-- Evaluates trees one after another. -/
def evalAll (a : Actions m) : List Expr → m (List Value)
  | [] => pure []
  | e :: es => do
    let v ← eval a e
    let vs ← evalAll a es
    pure (v :: vs)

/-- Evaluates trees up to the first whose text is the one looked for. -/
def evalIn (a : Actions m) (needle : String) : List Expr → m Bool
  | [] => pure false
  | e :: es => do
    let v ← eval a e
    if v.text == needle then pure true else evalIn a needle es

end

end Actions

/-! ## The evaluator

The two recursions have the same cases, and each case differs only in the name of what it calls. -/

/-- What an answer comes to for an evaluation. -/
def Lookup.result (ref : VarRef) : Lookup → Except EvalError Value
  | .resolved v => .ok v
  | .unresolved => .ok (.string "")
  | .refused reason => .error (.refusedLookup ref.name reason)

namespace Environment

/-- Asking for a variable is one event, whatever the answer. -/
theorem resolve_apply (env : Environment) (ref : VarRef) (c : Captures) : env.resolve ref c =
    ⟨(env.context ref).result ref, c, [.lookup ref (env.context ref)]⟩ := by
  rw [resolve, Walk.bind_ok _ rfl]
  cases env.context ref <;> rfl

/-- The actions of walks in an environment. -/
def actions (env : Environment) : Actions Walk :=
  ⟨env.resolve, env.call, env.search, Walk.backref, fun rs ↦ Walk.tell (rs.map .warning)⟩

/-- The parts of a string do the actions of walks. -/
theorem evalParts_eq (env : Environment) (ps : List StringPart) :
    env.evalParts ps = env.actions.evalParts ps := by
  induction ps with
  | nil => rfl
  | cons p ps ih =>
    rw [evalParts.eq_def, Actions.evalParts.eq_def]
    simp only [ih]
    cases p <;> rfl

mutual

/-- The evaluator does the actions of walks. -/
theorem eval_eq (env : Environment) : ∀ e : Expr, env.eval e = env.actions.eval e
  | .boolean _ | .number _ => by rw [eval, Actions.eval]
  | .variable _ | .backref _ => by rw [eval, Actions.eval]; rfl
  | .string parts => by rw [eval, Actions.eval, evalParts_eq]
  | .not e => by rw [eval, Actions.eval, eval_eq env e]
  | .logical op e f => by rw [eval, Actions.eval, eval_eq env e, eval_eq env f]
  | .comparison op e f => by rw [eval, Actions.eval, eval_eq env e, eval_eq env f]; rfl
  | .isMatch _ e _ => by rw [eval, Actions.eval, eval_eq env e]; rfl
  | .isIn e es => by
    rw [eval, Actions.eval, eval_eq env e]
    exact congrArg _ (funext fun v ↦ by rw [evalIn_eq env v.text es])
  | .concat es => by rw [eval, Actions.eval, evalAll_eq env es]
  | .call name es => by rw [eval, Actions.eval, evalAll_eq env es]; rfl
  | .unaryTest op e => by rw [eval, Actions.eval, eval_eq env e]; rfl
  | .binaryTest op e f => by rw [eval, Actions.eval, eval_eq env e, eval_eq env f]; rfl

theorem evalAll_eq (env : Environment) : ∀ es : List Expr, env.evalAll es = env.actions.evalAll es
  | [] => by rw [evalAll, Actions.evalAll]
  | e :: es => by rw [evalAll, Actions.evalAll, eval_eq env e, evalAll_eq env es]

theorem evalIn_eq (env : Environment) (needle : String) :
    ∀ es : List Expr, env.evalIn needle es = env.actions.evalIn needle es
  | [] => by rw [evalIn, Actions.evalIn]
  | e :: es => by rw [evalIn, Actions.evalIn, eval_eq env e, evalIn_eq env needle es]

end

end Environment

/-! ## Two ways to evaluate

Every case of the induction is made of `bind` and of what is known of the actions and of the
operands. -/

namespace Actions

variable {m n : Type → Type} [Monad m] [Monad n]

/-- The actions `a` and `b` are related one by one, by a relation that is kept by going on from one
step to the next. -/
structure Simulates (a : Actions m) (b : Actions n) (R : (α : Type) → m α → n α → Prop) : Prop where
  pure {α : Type} (x : α) : R α (pure x) (pure x)
  bind {α β : Type} {x : m α} {y : n α} {f : α → m β} {g : α → n β} (h : R α x y)
    (h' : ∀ v, R β (f v) (g v)) : R β (x >>= f) (y >>= g)
  resolve (ref : VarRef) : R Value (a.resolve ref) (b.resolve ref)
  call (name : String) (args : List Value) : R Value (a.call name args) (b.call name args)
  search (regex : RegexLiteral) (subject : String) :
    R Bool (a.search regex subject) (b.search regex subject)
  backref (k : Nat) : R String (a.backref k) (b.backref k)
  warn (records : List LogRecord) : R Unit (a.warn records) (b.warn records)

namespace Simulates

variable {a : Actions m} {b : Actions n} {R : (α : Type) → m α → n α → Prop}

/-- Related actions are related on the parts of a string. -/
theorem evalParts (h : Simulates a b R) :
    ∀ ps : List StringPart, R (List String) (a.evalParts ps) (b.evalParts ps)
  | [] => h.pure []
  | .text t :: ps => by
    refine h.bind (h.pure t) fun s ↦ ?_
    exact h.bind (evalParts h ps) fun ss ↦ h.pure (s :: ss)
  | .variable ref :: ps => by
    refine h.bind (h.resolve ref) fun v ↦ h.bind (h.pure v.text) fun s ↦ ?_
    exact h.bind (evalParts h ps) fun ss ↦ h.pure (s :: ss)
  | .backref k :: ps => by
    refine h.bind (h.backref k) fun s ↦ ?_
    exact h.bind (evalParts h ps) fun ss ↦ h.pure (s :: ss)

mutual

/-- **Related actions are related on every tree.**  An evaluation is made of actions and of going on
from one to the next, so a relation that both keep is kept by the whole.  The cases are the forms of
trees, and each is put together in the way that its evaluation is. -/
theorem eval (h : Simulates a b R) : ∀ e : Expr, R Value (a.eval e) (b.eval e)
  | .boolean _ | .number _ => by
    rw [Actions.eval, Actions.eval]
    exact h.pure _
  | .string parts => by
    rw [Actions.eval, Actions.eval]
    exact h.bind (h.evalParts parts) fun _ ↦ h.pure _
  | .variable ref => by
    rw [Actions.eval, Actions.eval]
    exact h.resolve ref
  | .backref k => by
    rw [Actions.eval, Actions.eval]
    exact h.bind (h.backref k) fun _ ↦ h.pure _
  | .not e => by
    rw [Actions.eval, Actions.eval]
    exact h.bind (eval h e) fun _ ↦ h.pure _
  | .logical op e f => by
    rw [Actions.eval, Actions.eval]
    refine h.bind (eval h e) fun v ↦ ?_
    split
    · exact h.pure _
    · exact h.bind (eval h f) fun _ ↦ h.pure _
  | .comparison op e f => by
    rw [Actions.eval, Actions.eval]
    refine h.bind (eval h e) fun _ ↦ h.bind (eval h f) fun _ ↦ ?_
    exact h.bind (h.warn _) fun _ ↦ h.pure _
  | .isMatch negated e regex => by
    rw [Actions.eval, Actions.eval]
    refine h.bind (eval h e) fun v ↦ ?_
    exact h.bind (h.search regex v.text) fun _ ↦ h.pure _
  | .isIn e es => by
    rw [Actions.eval, Actions.eval]
    refine h.bind (eval h e) fun v ↦ ?_
    exact h.bind (evalIn h v.text es) fun _ ↦ h.pure _
  | .concat es => by
    rw [Actions.eval, Actions.eval]
    exact h.bind (evalAll h es) fun _ ↦ h.pure _
  | .call name es => by
    rw [Actions.eval, Actions.eval]
    exact h.bind (evalAll h es) fun vs ↦ h.call name vs
  | .unaryTest op e => by
    rw [Actions.eval, Actions.eval]
    exact h.bind (eval h e) fun v ↦ h.call op [v]
  | .binaryTest op e f => by
    rw [Actions.eval, Actions.eval]
    exact h.bind (eval h e) fun v ↦ h.bind (eval h f) fun w ↦ h.call op [v, w]

/-- The same for trees that are evaluated one after another. -/
theorem evalAll (h : Simulates a b R) :
    ∀ es : List Expr, R (List Value) (a.evalAll es) (b.evalAll es)
  | [] => by
    rw [Actions.evalAll, Actions.evalAll]
    exact h.pure []
  | e :: es => by
    rw [Actions.evalAll, Actions.evalAll]
    refine h.bind (eval h e) fun v ↦ ?_
    exact h.bind (evalAll h es) fun vs ↦ h.pure (v :: vs)

/-- The same for a list that is searched for a text. -/
theorem evalIn (h : Simulates a b R) (needle : String) :
    ∀ es : List Expr, R Bool (a.evalIn needle es) (b.evalIn needle es)
  | [] => by
    rw [Actions.evalIn, Actions.evalIn]
    exact h.pure false
  | e :: es => by
    rw [Actions.evalIn, Actions.evalIn]
    refine h.bind (eval h e) fun v ↦ ?_
    split
    · exact h.pure true
    · exact evalIn h needle es

end

end Simulates

end Actions

/-- What all actions have, and what is kept by going on from one step to the next, every evaluation
has. -/
theorem Environment.eval_of_actions {env : Environment} {P : (α : Type) → Walk α → Prop}
    (h : Actions.Simulates env.actions env.actions fun α w _ ↦ P α w) (e : Expr) :
    P Value (env.eval e) := by
  rw [env.eval_eq]
  exact h.eval e

end RequestCondition

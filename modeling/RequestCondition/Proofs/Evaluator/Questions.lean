import RequestCondition.Proofs.Evaluator.Actions
import RequestCondition.Proofs.Evaluator.Operands

/-!
# An evaluation depends on what it asked

On its way a walk asks questions: for variables, and for the results of functions.  Another
environment may answer anything to the questions that the walk did not ask, and it would not be
noticed.  `eval_of_sameAnswers` says so: where the answers to the questions asked are the same, the
walk has the same result, leaves the same groups and asks the same questions in the same order.

Only the result of a function counts as its answer; what functions log may differ.

Nothing is asked for in a tree that is skipped (`StopsShort`): in the right side of a logical
operator whose left side decides, in the elements of a list behind the one looked for, and in what
stands behind an error.

The hypothesis is about the questions that one of the two walks asks, and not about all that could
be asked in the tree.  So it cannot be carried along as it stands: of the questions of a walk that
goes on, some are asked before and some behind, and what is asked behind depends on the answers.
`KeepsTo` has the hypothesis inside of it, for each slot, and the induction over trees is about
`KeepsTo` (`actions_keepsTo`).  Where the first part of two walks matches, they go on from the same
value and the same slot, so that the rest can be compared.

Regexes are no questions.  They are searched by an engine that is part of the environment, and that
engine has to be the same.
-/

set_option autoImplicit false

namespace RequestCondition

/-- A question of a walk: for a variable, or for the result of a function. -/
inductive Question where
  | lookup (ref : VarRef)
  | call (name : String) (args : List Value)
deriving DecidableEq

namespace Question

/-- The variable asked for. -/
def lookup? : Question → Option VarRef
  | lookup ref => some ref
  | call _ _ => none

/-- The function called, with its arguments. -/
def call? : Question → Option (String × List Value)
  | lookup _ => none
  | call name args => some (name, args)

end Question

/-- The question that an event asks. -/
def Event.question? : Event → Option Question
  | lookup ref _ => some (.lookup ref)
  | call name args _ => some (.call name args)
  | _ => none

namespace Outcome

variable {α : Type}

/-- The questions asked, in order. -/
def questions (o : Outcome α) : List Question := o.events.filterMap Event.question?

theorem lookups_eq_filterMap (o : Outcome α) :
    o.lookups = o.questions.filterMap Question.lookup? := by
  rw [lookups, questions, List.filterMap_filterMap]
  congr 1
  funext ev
  cases ev <;> rfl

theorem calls_eq_filterMap (o : Outcome α) :
    o.calls = o.questions.filterMap Question.call? := by
  rw [calls, questions, List.filterMap_filterMap]
  congr 1
  funext ev
  cases ev <;> rfl

/-- Outcomes that agree in all but what functions have logged. -/
structure Matches (o o' : Outcome α) : Prop where
  result : o'.result = o.result
  captures : o'.captures = o.captures
  questions : o'.questions = o.questions

end Outcome

/-- The operand that the evaluation of a tree begins with. -/
def Expr.first? : Expr → Option Expr
  | not a => some a
  | logical _ a _ => some a
  | comparison _ a _ => some a
  | isMatch _ a _ => some a
  | isIn a _ => some a
  | unaryTest _ a => some a
  | binaryTest _ a _ => some a
  | _ => none

namespace Environment

variable {env env' : Environment}

/-! ## What is skipped

These lemmas are about one environment.  They compare the evaluation of a tree with that of the part
of it in front of which it stops. -/

/-- Where the left side decides, nothing happens on the right. -/
theorem eval_logical_of_decided {op : LogicalOp} {left : Expr} {c : Captures} {v : Value}
    (hv : (env.eval left c).result = .ok v) (hop : op.decidedBy v.isTruthy = true) (right : Expr) :
    (env.eval (.logical op left right) c).events = (env.eval left c).events := by
  rcases ho : env.eval left c with ⟨r, c', es⟩
  rw [ho] at hv
  subst hv
  rw [eval, Walk.bind_ok _ ho, if_pos hop, Walk.pure_apply, List.append_nil]

/-- Where the first operand fails, nothing happens behind it. -/
theorem eval_of_first_error {e a : Expr} {c : Captures} {err : EvalError}
    (ha : e.first? = some a) (h : (env.eval a c).result = .error err) :
    (env.eval e c).events = (env.eval a c).events := by
  rcases ho : env.eval a c with ⟨r, c', es⟩
  rw [ho] at h
  subst h
  cases e <;> simp only [Expr.first?, Option.some.injEq, reduceCtorEq] at ha <;> subst ha <;>
    rw [eval, Walk.bind_error _ ho]

/-- Behind the element that is looked for, a list makes no difference. -/
theorem evalIn_append_of_found {needle : String} {es : List Expr} {c : Captures}
    (h : (env.evalIn needle es c).result = .ok true) (rest : List Expr) :
    env.evalIn needle (es ++ rest) c = env.evalIn needle es c := by
  rcases ho : env.evalIn needle es c with ⟨r, c', evs⟩
  rw [ho] at h
  subst h
  rw [evalIn_append, Walk.bind_ok _ ho, if_pos rfl, Walk.pure_apply, List.append_nil]

/-- Behind an argument that fails, the arguments make no difference. -/
theorem evalAll_append_of_error {es : List Expr} {c : Captures} {e : EvalError}
    (h : (env.evalAll es c).result = .error e) (rest : List Expr) :
    env.evalAll (es ++ rest) c = env.evalAll es c := by
  rcases ho : env.evalAll es c with ⟨r, c', evs⟩
  rw [ho] at h
  subst h
  rw [evalAll_append, Walk.bind_error _ ho]

/-- Where an evaluation stops short, it asks for nothing in the trees behind. -/
structure StopsShort (env : Environment) (start : Captures) : Prop where
  /-- The left side of a logical operator decides. -/
  decided (op : LogicalOp) (left right : Expr) (v : Value)
    (hv : (env.eval left start).result = .ok v) (hop : op.decidedBy v.isTruthy = true) :
    (env.eval (.logical op left right) start).questions = (env.eval left start).questions
  /-- The text looked for is in the front part of a list. -/
  found (needle : String) (es rest : List Expr)
    (h : (env.evalIn needle es start).result = .ok true) :
    (env.evalIn needle (es ++ rest) start).questions = (env.evalIn needle es start).questions
  /-- The operand that comes first ends in an error. -/
  failed (e a : Expr) (err : EvalError) (ha : e.first? = some a)
    (h : (env.eval a start).result = .error err) :
    (env.eval e start).questions = (env.eval a start).questions
  /-- The front part of some arguments ends in an error. -/
  failedAmong (es rest : List Expr) (err : EvalError)
    (h : (env.evalAll es start).result = .error err) :
    (env.evalAll (es ++ rest) start).questions = (env.evalAll es start).questions

theorem stopsShort (env : Environment) (start : Captures) : env.StopsShort start where
  decided _ _ right _ hv hop :=
    congrArg (List.filterMap Event.question?) (eval_logical_of_decided hv hop right)
  found _ _ rest h := congrArg Outcome.questions (evalIn_append_of_found h rest)
  failed _ _ _ ha h := congrArg (List.filterMap Event.question?) (eval_of_first_error ha h)
  failedAmong _ rest _ h := congrArg Outcome.questions (evalAll_append_of_error h rest)

/-! ## Two environments

What is asked of the answers is asked of each question by itself. -/

/-- Whether two environments answer a question in the same way. -/
def SameAnswer (env env' : Environment) : Question → Prop
  | .lookup ref => env'.context ref = env.context ref
  | .call name args =>
    (env'.functions.call name args).result = (env.functions.call name args).result

/-- A walk that another one keeps to as long as its questions are answered in the same way. -/
def KeepsTo (env env' : Environment) (α : Type) (w w' : Walk α) : Prop :=
  ∀ c, (∀ q ∈ (w c).questions, SameAnswer env env' q) → (w c).Matches (w' c)

/-- **A walk that keeps to another goes on to keep to it.**  If the questions of the whole are
answered alike, so are those of the first part.  Hence both first parts end with one value and one
slot, and the second parts start alike. -/
theorem KeepsTo.bind {α β : Type} {w w' : Walk α} {f f' : α → Walk β}
    (hw : KeepsTo env env' α w w') (hf : ∀ a, KeepsTo env env' β (f a) (f' a)) :
    KeepsTo env env' β (w >>= f) (w' >>= f') := by
  intro c hans
  rcases ho : w c with ⟨r, c₁, es₁⟩
  rcases ho' : w' c with ⟨r', c₁', es₁'⟩
  have h := hw c
  rw [ho, ho'] at h
  cases r with
  | error e =>
    rw [Walk.bind_error f ho] at hans ⊢
    obtain ⟨hr, hc, hq⟩ := h hans
    simp only at hr hc
    subst hr hc
    rw [Walk.bind_error f' ho']
    exact ⟨rfl, rfl, hq⟩
  | ok a =>
    rw [Walk.bind_ok f ho] at hans ⊢
    simp only [Outcome.questions, List.filterMap_append, List.mem_append] at hans
    obtain ⟨hr, hc, hq⟩ := h fun q hq ↦ hans q (.inl hq)
    simp only at hr hc
    subst hr hc
    rw [Walk.bind_ok f' ho']
    obtain ⟨hr₂, hc₂, hq₂⟩ := hf a c₁' fun q hq ↦ hans q (.inr hq)
    refine ⟨hr₂, hc₂, ?_⟩
    simp only [Outcome.questions, List.filterMap_append] at hq hq₂ ⊢
    rw [hq, hq₂]

theorem KeepsTo.refl {α : Type} (w : Walk α) : KeepsTo env env' α w w :=
  fun _ _ ↦ ⟨rfl, rfl, rfl⟩

/-- A variable is asked for, and the answers are the same. -/
theorem KeepsTo.resolve (ref : VarRef) :
    KeepsTo env env' Value (env.resolve ref) (env'.resolve ref) := by
  intro c hans
  have hans : env'.context ref = env.context ref := by
    refine hans (.lookup ref) ?_
    rw [resolve_apply]
    exact List.mem_singleton_self _
  rw [resolve_apply, resolve_apply, hans]
  exact ⟨rfl, rfl, rfl⟩

/-- A function is called, and what it says is the same; what it logs need not be. -/
theorem KeepsTo.call (name : String) (args : List Value) :
    KeepsTo env env' Value (env.call name args) (env'.call name args) := by
  intro c hans
  exact ⟨hans (.call name args) (List.mem_singleton_self _), rfl, rfl⟩

/-- A search asks nothing, and the engine is the same. -/
theorem KeepsTo.search (hengine : env'.engine = env.engine) (regex : RegexLiteral)
    (subject : String) :
    KeepsTo env env' Bool (env.search regex subject) (env'.search regex subject) := by
  rw [show env'.search regex subject = env.search regex subject by
    rw [Environment.search, Environment.search, hengine]]
  exact .refl _

/-- On one regex engine, each action keeps to the same action in the other environment. -/
theorem actions_keepsTo (hengine : env'.engine = env.engine) :
    Actions.Simulates env.actions env'.actions (KeepsTo env env') where
  pure _ := .refl _
  bind h h' := h.bind h'
  resolve := .resolve
  call := .call
  search := .search hengine
  backref _ := .refl _
  warn _ := .refl _

/-- **An evaluation depends only on what it asked for.**  If another environment with the same regex
engine gives the same answers to all the questions that an evaluation asks, for variables and for
the results of functions, then the evaluation in that environment has the same result, value or
error, leaves the same groups, and asks exactly the same questions in the same order.  And it asks
for nothing in an operand that is skipped, behind an element that was looked for, or behind an
error. -/
theorem eval_of_sameAnswers (env env' : Environment) (hengine : env'.engine = env.engine)
    (e : Expr) (start : Captures)
    (h : ∀ q ∈ (env.eval e start).questions, SameAnswer env env' q) :
    ((env'.eval e start).result = (env.eval e start).result ∧
      (env'.eval e start).captures = (env.eval e start).captures ∧
      (env'.eval e start).questions = (env.eval e start).questions ∧
      (env'.eval e start).lookups = (env.eval e start).lookups ∧
      (env'.eval e start).calls = (env.eval e start).calls) ∧
    env.StopsShort start := by
  have hkeeps := (actions_keepsTo hengine).eval e start
  rw [← eval_eq, ← eval_eq] at hkeeps
  obtain ⟨hr, hc, hq⟩ := hkeeps h
  refine ⟨⟨hr, hc, hq, ?_, ?_⟩, stopsShort env start⟩
  · rw [Outcome.lookups_eq_filterMap, hq, ← Outcome.lookups_eq_filterMap]
  · rw [Outcome.calls_eq_filterMap, hq, ← Outcome.calls_eq_filterMap]

/-- The right side of `||` is skipped: the second environment refuses its variable and has another
function by the name. -/
theorem eval_of_sameAnswers_skipped :
    let e : Expr := .logical .or (.call "first" [.variable ⟨"A", []⟩])
      (.call "second" [.variable ⟨"B", []⟩])
    let first : Function := .host "first" 1 fun args ↦ .ok (args.headD (.string ""))
    let second : Function := .host "second" 1 fun _ ↦ .ok (.boolean true)
    let env : Environment :=
      { context := fun _ ↦ .resolved (.number (.ofNat 7))
        functions := .ofFunctions [first] }
    let env' : Environment :=
      { context := fun ref ↦
          if ref.name = "A" then .resolved (.number (.ofNat 7)) else .refused "closed"
        functions := .ofFunctions [first, second] }
    env'.engine = env.engine ∧ (∀ q ∈ (env.eval e .none).questions, SameAnswer env env' q) ∧
      (env'.eval e .none).result = (env.eval e .none).result ∧
      (env'.eval e .none).lookups = (env.eval e .none).lookups := by
  intro e first second env env'
  have hq : (env.eval e .none).questions =
      [.lookup ⟨"A", []⟩, .call "first" [.number (.ofNat 7)]] := by rfl
  have h : ∀ q ∈ (env.eval e .none).questions, SameAnswer env env' q := by
    rw [hq]
    simp only [List.mem_cons, List.not_mem_nil, or_false, forall_eq_or_imp, forall_eq]
    exact ⟨rfl, rfl⟩
  obtain ⟨⟨hresult, -, -, hlookups, -⟩, -⟩ := eval_of_sameAnswers env env' rfl e .none h
  exact ⟨rfl, h, hresult, hlookups⟩

end Environment

end RequestCondition

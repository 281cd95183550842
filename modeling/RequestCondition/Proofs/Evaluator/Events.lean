import RequestCondition.Proofs.Evaluator.Actions
import RequestCondition.Proofs.Evaluator.Skipping

/-!
# Where events and errors come from

Whatever happens in an evaluation is done by some tree inside the one that is evaluated: a variable
is asked for by a reference to it, a regex searches in a match, a function is called by a call or a
test.  `Expr.Makes` says which events are of a root, and `makes_of_mem_events` that there are no
others.  So what a tree does not contain does not happen, and that can be seen without evaluating:
`Expr.callees`, `Expr.regexes` and `Expr.backrefs` list what there is.

An error is the answer to the last question asked (`exists_raises_of_error`).  The host refuses a
variable, or a call has no value.

The first result is a little stronger than that some tree makes the event.  The tree is one that the
evaluation visits, and its operands have been evaluated by then (`exists_visit_of_mem_events`).  The
proof goes down from the root: an event is either of the root, or it happens in an operand that is
come to.  It does not look at the kinds of roots, since every root is evaluated operand by operand
(`eval_eq_operands`); they come up only where a root concludes (`makes_of_mem_events_conclude`).

The second result is about the order of events and not about trees.  It is a property of walks that
is kept by going on, so `eval_of_actions` has it for every evaluation: a walk that ends in an error
ends with the event that raised it, because nothing happens behind an error.
-/

set_option autoImplicit false

namespace RequestCondition

/-! ## The trees in a tree

Trees below a root are listed from left to right, each in front of its own.  Every tree that a path
leads to is in the list. -/

namespace Expr

mutual

/-- The trees below a root. -/
def descendants : Expr → List Expr
  | .boolean _ | .number _ | .string _ | .variable _ | .backref _ => []
  | .not a | .isMatch _ a _ | .unaryTest _ a => a :: descendants a
  | .logical _ a b | .comparison _ a b | .binaryTest _ a b =>
    a :: descendants a ++ b :: descendants b
  | .isIn a as => a :: descendants a ++ subtreesAll as
  | .concat as | .call _ as => subtreesAll as

/-- Some trees with all those below them. -/
def subtreesAll : List Expr → List Expr
  | [] => []
  | a :: as => a :: descendants a ++ subtreesAll as

end

/-- All trees in a tree, which is the first of them. -/
def subtrees (e : Expr) : List Expr := e :: e.descendants

/-- Some trees with all below them, tree by tree. -/
theorem subtreesAll_eq_flatMap (as : List Expr) : subtreesAll as = as.flatMap subtrees := by
  induction as with
  | nil => rw [subtreesAll, List.flatMap_nil]
  | cons a as ih => rw [subtreesAll, List.flatMap_cons, ih, subtrees]

/-- What is below a root is what is in its operands. -/
theorem descendants_eq (e : Expr) : e.descendants = e.operands.flatMap subtrees := by
  cases e <;> simp [descendants, operands, subtrees, subtreesAll_eq_flatMap]

/-- What a path leads to is one of the trees in a tree. -/
theorem mem_subtrees_of_subtree? {path : List Nat} {e a : Expr} (h : e.subtree? path = some a) :
    a ∈ e.subtrees := by
  induction path generalizing e with
  | nil =>
    cases h
    exact List.mem_cons_self
  | cons i path ih =>
    obtain ⟨b, hb, h⟩ := Option.bind_eq_some_iff.1 h
    rw [subtrees, descendants_eq]
    exact List.mem_cons_of_mem e (List.mem_flatMap.2 ⟨b, List.mem_of_getElem? hb, ih h⟩)

/-- The function that a root calls, with the number of operands given. -/
def callee? : Expr → Option (String × Nat)
  | .call name args => some (name, args.length)
  | .unaryTest op _ => some (op, 1)
  | .binaryTest op _ _ => some (op, 2)
  | _ => none

/-- The regex that a root searches with. -/
def regex? : Expr → Option RegexLiteral
  | .isMatch _ _ regex => some regex
  | _ => none

end Expr

/-- The group that a part of a string reads. -/
def StringPart.group? : StringPart → Option Nat
  | .text _ | .variable _ => none
  | .backref n => some n

namespace Expr

/-- The groups that a root reads. -/
def groups : Expr → List Nat
  | .backref n => [n]
  | .string parts => parts.filterMap StringPart.group?
  | _ => []

/-- The functions that are called in a tree, with the numbers of operands given. -/
def callees (e : Expr) : List (String × Nat) := e.subtrees.filterMap callee?

/-- The regexes of the matches in a tree. -/
def regexes (e : Expr) : List RegexLiteral := e.subtrees.filterMap regex?

/-- The groups that are referred to in a tree, by a reference on its own or by a part of a
string. -/
def backrefs (e : Expr) : List Nat := e.subtrees.flatMap groups

end Expr

/-! ## The events of a root

What a root can do is told by the root, but for the values that it is given. -/

/-- What a part of a string does. -/
inductive StringPart.Makes : StringPart → Event → Prop
  | lookup (ref : VarRef) (answer : Lookup) : Makes (.variable ref) (.lookup ref answer)
  | backref (n : Nat) (text : String) : Makes (.backref n) (.backref n text)

/-- What a root does, once its operands have values. -/
inductive Expr.Makes : Expr → Event → Prop
  | lookup (ref : VarRef) (answer : Lookup) : Makes (.variable ref) (.lookup ref answer)
  | backref (n : Nat) (text : String) : Makes (.backref n) (.backref n text)
  | part {parts : List StringPart} {p : StringPart} {ev : Event} (hp : p ∈ parts)
      (h : p.Makes ev) : Makes (.string parts) ev
  | warning (op : CmpOp) (a b : Expr) (record : LogRecord) :
      Makes (.comparison op a b) (.warning record)
  | search (negated : Bool) (a : Expr) (regex : RegexLiteral) (subject : String)
      (found : Option Regex.Groups) :
      Makes (.isMatch negated a regex) (.search regex subject found)
  | call {e : Expr} {name : String} {args : List Value} (h : e.callee? = some (name, args.length))
      (log : List LogRecord) : Makes e (.call name args log)

namespace Walk

variable {α β : Type}

/-- What happens on a walk that goes on happens before or behind. -/
theorem mem_events_bind {w : Walk α} {f : α → Walk β} {c : Captures} {ev : Event}
    (h : ev ∈ ((w >>= f) c).events) :
    ev ∈ (w c).events ∨ ∃ a, (w c).result = .ok a ∧ ev ∈ (f a (w c).captures).events := by
  rcases ho : w c with ⟨err | a, c', es⟩
  · rw [bind_error f ho] at h
    exact .inl h
  · rw [bind_ok f ho] at h
    exact (List.mem_append.1 h).imp_right fun h ↦ ⟨a, rfl, h⟩

end Walk

namespace Environment

variable {env : Environment} {c : Captures} {ev : Event}

/-- What happens on the way to an operand happens in those in front of it that are come to. -/
theorem exists_comesTo_of_mem_events {e : Expr} {n : Nat} (hn : n ≤ e.operands.length)
    (h : ev ∈ (env.approach e n c).events) : ∃ i a c', e.operands[i]? = some a ∧
      env.comesTo? e i c = some c' ∧ ev ∈ (env.eval a c').events := by
  induction n with
  | zero => cases h
  | succ n ih =>
    have ha : e.operands[n]? = some e.operands[n] := List.getElem?_eq_getElem hn
    cases hc : env.comesTo? e n c with
    | none =>
      rw [approach_succ_of_none ha hc] at h
      exact ih (Nat.le_of_succ_le hn) h
    | some c' =>
      obtain ⟨vs, evs, happ, hsucc⟩ := approach_succ_of_some ha hc
      rw [hsucc] at h
      rcases List.mem_append.1 h with h | h
      · exact ih (Nat.le_of_succ_le hn) (by rwa [happ])
      · exact ⟨n, _, c', ha, hc, h⟩

/-- Where nothing has been decided, all operands have values. -/
theorem length_of_evalUntil {stop : List Value → Bool} {vs ws : List Value} {es : List Expr}
    (h : (env.evalUntil stop vs es c).result = .ok ws) (hs : stop ws = false) :
    ws.length = vs.length + es.length := by
  induction es generalizing vs c with
  | nil =>
    rw [evalUntil] at h
    cases h
    rfl
  | cons e es ih =>
    cases hvs : stop vs with
    | true =>
      rw [evalUntil_of_stop hvs] at h
      cases h
      rw [hvs] at hs
      cases hs
    | false =>
      rw [evalUntil_cons hvs] at h
      rcases ho : env.eval e c with ⟨err | v, c', evs⟩
      · rw [Walk.bind_error _ ho] at h
        cases h
      · rw [Walk.bind_ok _ ho] at h
        rw [ih h, List.length_append, List.length_singleton, List.length_cons]
        omega

theorem eq_lookup_of_mem_events {ref : VarRef} (h : ev ∈ (env.resolve ref c).events) :
    ev = .lookup ref (env.context ref) := by
  rw [resolve_apply] at h
  exact List.mem_singleton.1 h

theorem makes_of_mem_events_evalParts {ps : List StringPart}
    (h : ev ∈ (env.evalParts ps c).events) : ∃ p ∈ ps, p.Makes ev := by
  induction ps generalizing c with
  | nil => cases h
  | cons p ps ih =>
    have hrest {s : String} {c' : Captures}
        (h : ev ∈ ((env.evalParts ps >>= fun ss ↦ pure (s :: ss)) c').events) :
        ∃ p' ∈ p :: ps, p'.Makes ev := by
      rcases Walk.mem_events_bind h with h | ⟨ss, -, h⟩
      · obtain ⟨p', hp', h⟩ := ih h
        exact ⟨p', List.mem_cons_of_mem p hp', h⟩
      · cases h
    cases p with
    | text t =>
      rw [evalParts, pure_bind] at h
      exact hrest h
    | «variable» ref =>
      rw [evalParts] at h
      rcases Walk.mem_events_bind h with h | ⟨v, -, h⟩
      · rw [eq_lookup_of_mem_events h]
        exact ⟨_, List.mem_cons_self, .lookup ref _⟩
      · rw [pure_bind] at h
        exact hrest h
    | backref n =>
      rw [evalParts] at h
      rcases Walk.mem_events_bind h with h | ⟨s, -, h⟩
      · obtain rfl := List.mem_singleton.1 h
        exact ⟨_, List.mem_cons_self, .backref n _⟩
      · exact hrest h

theorem makes_of_mem_events_conclude {e : Expr} {vs : List Value}
    (h : ev ∈ (env.conclude e vs c).events)
    (hvs : e.decidedBy vs = false → vs.length = e.operands.length) : e.Makes ev := by
  cases e with
  | string parts =>
    rw [conclude] at h
    rcases Walk.mem_events_bind h with h | ⟨texts, -, h⟩
    · obtain ⟨p, hp, h⟩ := makes_of_mem_events_evalParts h
      exact .part hp h
    · cases h
  | «variable» ref =>
    rw [eq_lookup_of_mem_events h]
    exact .lookup ref _
  | backref n =>
    obtain rfl := List.mem_singleton.1 h
    exact .backref n _
  | comparison op a b =>
    rcases vs with _ | ⟨v, _ | ⟨w, _ | ⟨u, us⟩⟩⟩
    case cons.cons.nil =>
      rw [conclude] at h
      rcases Walk.mem_events_bind h with h | ⟨_, -, h⟩
      · obtain ⟨record, -, rfl⟩ := List.mem_map.1 h
        exact .warning op a b record
      · cases h
    all_goals cases h
  | isMatch negated a regex =>
    rcases vs with _ | ⟨v, _ | ⟨w, us⟩⟩
    case cons.nil =>
      obtain rfl := List.mem_singleton.1 h
      exact .search negated a regex _ _
    all_goals cases h
  | call name args =>
    have hlen : vs.length = args.length := hvs (by cases vs <;> rfl)
    obtain rfl := List.mem_singleton.1 h
    exact .call (by rw [Expr.callee?, hlen]) _
  | unaryTest op a =>
    have hlen : vs.length = 1 := hvs (by cases vs <;> rfl)
    obtain rfl := List.mem_singleton.1 h
    exact .call (by rw [Expr.callee?, hlen]) _
  | binaryTest op a b =>
    have hlen : vs.length = 2 := hvs (by cases vs <;> rfl)
    obtain rfl := List.mem_singleton.1 h
    exact .call (by rw [Expr.callee?, hlen]) _
  | not _ | logical _ _ _ =>
    rcases vs with _ | ⟨v, _ | ⟨w, _ | ⟨u, us⟩⟩⟩ <;> cases h
  | boolean _ | number _ | isIn _ _ | concat _ => cases h

/-- Where all operands have been evaluated, or enough of them, the root concludes. -/
theorem eval_of_approach {e : Expr} {c c' : Captures} {vs : List Value} {evs : List Event}
    (h : env.approach e e.operands.length c = ⟨.ok vs, c', evs⟩) :
    env.eval e c = ⟨(env.conclude e vs c').result, (env.conclude e vs c').captures,
      evs ++ (env.conclude e vs c').events⟩ := by
  rw [eval_eq_approach e e.operands.length, Walk.bind_ok _ h, List.drop_length, evalUntil,
    pure_bind]

/-- **Every event is made by a tree that the evaluation comes to**, when its operands have been
evaluated.  An event of an evaluation either belongs to one of the operands, on the way to the
conclusion, or the conclusion makes it.  The induction is on the tree, so in the first case the path
in the operand is one step shorter. -/
theorem exists_visit_of_mem_events {e : Expr} (h : ev ∈ (env.eval e c).events) :
    ∃ path a c', env.visit? path e c = some (a, c') ∧ a.Makes ev ∧
      ∃ vs, (env.approach a a.operands.length c').result = .ok vs := by
  induction e using Expr.induction_operands generalizing c with
  | h e ih =>
    have hoperand (h : ev ∈ (env.approach e e.operands.length c).events) :
        ∃ path a c', env.visit? path e c = some (a, c') ∧ a.Makes ev ∧
          ∃ vs, (env.approach a a.operands.length c').result = .ok vs := by
      obtain ⟨i, a, c', ha, hc, h⟩ := exists_comesTo_of_mem_events (Nat.le_refl _) h
      obtain ⟨path, b, c₁, hv, hmakes⟩ := ih a (List.mem_of_getElem? ha) h
      refine ⟨i :: path, b, c₁, ?_, hmakes⟩
      rw [visit?_cons ha, hc, Option.bind_some, hv]
    rcases happ : env.approach e e.operands.length c with ⟨err | vs, c', evs⟩
    · rw [eval_eq_approach e e.operands.length, Walk.bind_error _ happ] at h
      exact hoperand (by rwa [happ])
    · rw [eval_of_approach happ] at h
      rcases List.mem_append.1 h with h | h
      · exact hoperand (by rwa [happ])
      · refine ⟨[], e, c, rfl, makes_of_mem_events_conclude h fun hd ↦ ?_, vs, by rw [happ]⟩
        rw [approach, List.take_length] at happ
        rw [length_of_evalUntil (by rw [happ]) hd, List.length_nil, Nat.zero_add]

/-- **Every event is made by some tree in the tree.** -/
theorem makes_of_mem_events {e : Expr} (h : ev ∈ (env.eval e c).events) :
    ∃ a ∈ e.subtrees, a.Makes ev := by
  obtain ⟨path, a, c', hv, hmakes, -⟩ := exists_visit_of_mem_events h
  exact ⟨a, Expr.mem_subtrees_of_subtree? (subtree?_of_visit? hv), hmakes⟩

/-! ## What a tree can do

Three lists that can be read off a tree, for the three kinds of events that later modules ask
for. -/

variable {e : Expr}

/-- What is called is among the callees of the tree. -/
theorem mem_callees_of_call {name : String} {args : List Value} {log : List LogRecord}
    (h : .call name args log ∈ (env.eval e c).events) : (name, args.length) ∈ e.callees := by
  obtain ⟨a, ha, hmakes⟩ := makes_of_mem_events h
  refine List.mem_filterMap.2 ⟨a, ha, ?_⟩
  cases hmakes with
  | call h => exact h
  | part _ h => cases h

/-- What searches is among the regexes of the tree. -/
theorem mem_regexes_of_search {regex : RegexLiteral} {subject : String}
    {found : Option Regex.Groups} (h : .search regex subject found ∈ (env.eval e c).events) :
    regex ∈ e.regexes := by
  obtain ⟨a, ha, hmakes⟩ := makes_of_mem_events h
  refine List.mem_filterMap.2 ⟨a, ha, ?_⟩
  cases hmakes with
  | search => rfl
  | part _ h => cases h

/-- A group that is read is one that the tree refers to. -/
theorem mem_backrefs_of_backref {n : Nat} {text : String}
    (h : .backref n text ∈ (env.eval e c).events) : n ∈ e.backrefs := by
  obtain ⟨a, ha, hmakes⟩ := makes_of_mem_events h
  refine List.mem_flatMap.2 ⟨a, ha, ?_⟩
  cases hmakes with
  | backref => exact List.mem_singleton_self n
  | part hp h =>
    cases h
    exact List.mem_filterMap.2 ⟨_, hp, rfl⟩

/-! ## Errors

An event raises an error if the answer in it is one. -/

/-- What a question can fail with: the variable is refused, or the call has no value. -/
inductive Raises (env : Environment) : Event → EvalError → Prop
  | refused {ref : VarRef} {reason : String} (h : env.context ref = .refused reason) :
      Raises env (.lookup ref (.refused reason)) (.refusedLookup ref.name reason)
  | call {name : String} {args : List Value} {err : EvalError} (log : List LogRecord)
      (h : (env.functions.call name args).result = .error err) :
      Raises env (.call name args log) err

/-- A walk that ends in an error ends with the event that raises it. -/
def RaisesLast (env : Environment) (α : Type) (w : Walk α) : Prop :=
  ∀ c err, (w c).result = .error err → ∃ ev ∈ (w c).events.getLast?, env.Raises ev err

theorem RaisesLast.of_ok {α : Type} {w : Walk α} (h : ∀ c, ∃ a, (w c).result = .ok a) :
    env.RaisesLast α w := by
  intro c err herr
  obtain ⟨a, ha⟩ := h c
  rw [ha] at herr
  cases herr

/-- An error comes from the first walk, or from the one that goes on behind it. -/
theorem RaisesLast.bind {α β : Type} {w : Walk α} {f : α → Walk β} (hw : env.RaisesLast α w)
    (hf : ∀ a, env.RaisesLast β (f a)) : env.RaisesLast β (w >>= f) := by
  intro c err herr
  rcases ho : w c with ⟨err' | a, c', es⟩
  · rw [Walk.bind_error f ho] at herr ⊢
    cases herr
    have h := hw c err
    rw [ho] at h
    exact h rfl
  · rw [Walk.bind_ok f ho] at herr ⊢
    obtain ⟨ev, hev, h⟩ := hf a c' err herr
    refine ⟨ev, ?_, h⟩
    rw [List.getLast?_append, Option.mem_def.1 hev]
    rfl

theorem RaisesLast.resolve (ref : VarRef) : env.RaisesLast Value (env.resolve ref) := by
  intro c err herr
  rw [resolve_apply] at herr ⊢
  refine ⟨_, rfl, ?_⟩
  cases h : env.context ref with
  | refused reason =>
    rw [h] at herr
    cases herr
    exact .refused h
  | _ =>
    rw [h] at herr
    cases herr

/-- **An error is the answer to the last question.** -/
theorem exists_raises_of_error {err : EvalError} (h : (env.eval e c).result = .error err) :
    ∃ ev ∈ (env.eval e c).events.getLast?, env.Raises ev err := by
  refine eval_of_actions (P := fun α w ↦ env.RaisesLast α w) ?_ e c err h
  exact {
    pure := fun _ ↦ .of_ok fun _ ↦ ⟨_, rfl⟩
    bind := fun hw hf ↦ hw.bind hf
    resolve := .resolve
    call := fun _ _ _ _ herr ↦ ⟨_, rfl, .call _ herr⟩
    search := fun _ _ ↦ .of_ok fun _ ↦ ⟨_, rfl⟩
    backref := fun _ ↦ .of_ok fun _ ↦ ⟨_, rfl⟩
    warn := fun _ ↦ .of_ok fun _ ↦ ⟨_, rfl⟩ }

end Environment

end RequestCondition

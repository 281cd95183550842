import RequestCondition.Proofs.Evaluator.Operands

/-!
# Which trees an evaluation skips

A tree inside another one is named by the path that leads to it: which operand to go on with, at
every tree on the way.  The evaluation of a tree skips what is at the end of a path if any tree
could stand there, without a difference to the outcome (`Environment.Skips`).  Nothing is said about
how the evaluator goes about it.

`skips_iff` has it the other way: what is skipped are the trees that the evaluation does not visit.
One half of it is that an evaluation depends on operands where it comes to them and nowhere else.
For the other half a tree is put at the end of the path that makes itself noticed: it reads more
groups than anything happened before.

A visit goes along the path.  It has to come to each operand on the way, with whatever groups are at
hand there, and leads to a tree and the groups from which that tree is evaluated (`visit?`).  What
is known of one step along the path is known from operands, and the inductions here are on paths.

To be noticed is harder than it looks.  A tree that has another value may make no difference to the
value of the whole; so may one that fails, if it is put where the old one failed.  Events cannot be
undone, though.  What happens in a tree that is visited is a part of what happens in the whole
(`events_of_visit?`), so a tree with more events than the whole had before cannot stand there
unnoticed.  A string that reads a group many times is such a tree, and it asks nothing of the
environment (`Expr.noisy`).
-/

set_option autoImplicit false

namespace RequestCondition

namespace Expr

/-- The tree at the end of a path. -/
def subtree? : List Nat → Expr → Option Expr
  | [], e => some e
  | i :: path, e => e.operands[i]?.bind (subtree? path)

/-- Puts another tree at the end of a path. -/
def graft : Expr → List Nat → Expr → Expr
  | _, [], x => x
  | e, i :: path, x => e.withOperands (e.operands.modify i fun a ↦ graft a path x)

/-- A string that reads the whole match `n` times. -/
def noisy (n : Nat) : Expr := .string (List.replicate n (.backref 0))

end Expr

namespace Environment

variable (env : Environment)

/-- The tree at the end of a path, and the groups at hand where the evaluation of the whole comes to
it, if it does. -/
def visit? : List Nat → Expr → Captures → Option (Expr × Captures)
  | [], e, c => some (e, c)
  | i :: path, e, c => do
    let c' ← env.comesTo? e i c
    let a ← e.operands[i]?
    visit? path a c'

/-- What the tree at the end of a path comes to, if the evaluation of the whole comes to it. -/
def resultAt? (path : List Nat) (e : Expr) (c : Captures) : Option (Except EvalError Value) :=
  (env.visit? path e c).map fun (a, c') ↦ (env.eval a c').result

/-- Whatever is put at the end of the path, the outcome is the same. -/
def Skips (e : Expr) (c : Captures) (path : List Nat) : Prop :=
  ∀ x, env.eval (e.graft path x) c = env.eval e c

variable {env} {e a : Expr} {i : Nat} {path : List Nat} {c c' c₁ : Captures}

/-! ## Visits

A visit along a path is one along its front and one along the rest. -/

theorem visit?_cons (h : e.operands[i]? = some a) :
    env.visit? (i :: path) e c = (env.comesTo? e i c).bind fun c' ↦ env.visit? path a c' := by
  simp only [visit?, h, Option.bind_eq_bind, Option.bind_some]

theorem visit?_cons_eq_some_iff {p : Expr × Captures} : env.visit? (i :: path) e c = some p ↔
    ∃ a c₁, e.operands[i]? = some a ∧ env.comesTo? e i c = some c₁ ∧
      env.visit? path a c₁ = some p := by
  simp only [visit?, Option.bind_eq_bind, Option.bind_eq_some_iff]
  constructor
  · rintro ⟨c₁, hc, a, ha, h⟩
    exact ⟨a, c₁, ha, hc, h⟩
  · rintro ⟨a, c₁, ha, hc, h⟩
    exact ⟨c₁, hc, a, ha, h⟩

/-- A visit along two paths, one behind the other. -/
theorem visit?_append (path path' : List Nat) (e : Expr) (c : Captures) :
    env.visit? (path ++ path') e c =
      (env.visit? path e c).bind fun p ↦ env.visit? path' p.1 p.2 := by
  induction path generalizing e c with
  | nil => rfl
  | cons i path ih =>
    simp only [List.cons_append, visit?, Option.bind_eq_bind, Option.bind_assoc, ih]

/-- What is visited is the tree at the end of the path. -/
theorem subtree?_of_visit? (h : env.visit? path e c = some (a, c')) :
    e.subtree? path = some a := by
  induction path generalizing e c with
  | nil =>
    cases h
    rfl
  | cons i path ih =>
    obtain ⟨b, c₁, hb, -, h⟩ := visit?_cons_eq_some_iff.1 h
    rw [Expr.subtree?, hb, Option.bind_some, ih h]

/-- What happens in a tree that is visited happens in the whole. -/
theorem events_of_visit? (h : env.visit? path e c = some (a, c')) :
    (env.eval a c').events <:+: (env.eval e c).events := by
  induction path generalizing e c with
  | nil =>
    cases h
    exact List.infix_rfl
  | cons i path ih =>
    obtain ⟨b, c₁, hb, hc, h⟩ := visit?_cons_eq_some_iff.1 h
    exact (ih h).trans (events_of_operand hb hc)

theorem resultAt?_of_visit? (h : env.visit? path e c = some (a, c')) :
    env.resultAt? path e c = some (env.eval a c').result := by
  rw [resultAt?, h, Option.map_some]

theorem resultAt?_singleton (ha : e.operands[i]? = some a) :
    env.resultAt? [i] e c = (env.comesTo? e i c).map fun c' ↦ (env.eval a c').result := by
  rw [resultAt?, visit?_cons ha]
  cases env.comesTo? e i c <;> rfl

/-- The value of an operand comes behind those in front of it. -/
theorem approach_succ_result {vs : List Value} {v : Value} (hi : i < e.operands.length)
    (hvs : (env.approach e i c).result = .ok vs) (hv : env.resultAt? [i] e c = some (.ok v)) :
    (env.approach e (i + 1) c).result = .ok (vs ++ [v]) := by
  have ha : e.operands[i]? = some e.operands[i] := List.getElem?_eq_getElem hi
  rw [resultAt?_singleton ha, Option.map_eq_some_iff] at hv
  obtain ⟨c', hc, hv⟩ := hv
  obtain ⟨vs', evs, happ, hsucc⟩ := approach_succ_of_some ha hc
  rw [happ] at hvs
  cases hvs
  rw [hsucc, hv]
  rfl

theorem resultAt?_append (h : env.visit? path e c = some (a, c')) (path' : List Nat) :
    env.resultAt? (path ++ path') e c = env.resultAt? path' a c' := by
  rw [resultAt?, visit?_append, h, Option.bind_some, resultAt?]

theorem exists_visit?_of_resultAt? {path' : List Nat} {r : Except EvalError Value}
    (ha : e.subtree? path = some a) (h : env.resultAt? (path ++ path') e c = some r) :
    ∃ c', env.visit? path e c = some (a, c') := by
  cases hv : env.visit? path e c with
  | none =>
    rw [resultAt?, visit?_append, hv] at h
    cases h
  | some p =>
    obtain ⟨b, c'⟩ := p
    rw [subtree?_of_visit? hv] at ha
    cases ha
    exact ⟨c', rfl⟩

/-! ## Grafts

What is put at the end of a path is visited where the old tree was, with the same groups at hand. -/

/-- A graft changes one operand of the root. -/
theorem operands_graft (e : Expr) (i : Nat) (path : List Nat) (x : Expr) :
    (e.graft (i :: path) x).operands = e.operands.modify i fun a ↦ a.graft path x :=
  (withOperands_root (List.length_modify ..)).1

/-- A graft in an operand does not decide whether the operand is come to. -/
theorem comesTo?_graft (e : Expr) (i : Nat) (path : List Nat) (x : Expr) (c : Captures) :
    env.comesTo? (e.graft (i :: path) x) i c = env.comesTo? e i c := by
  have hdec : (e.graft (i :: path) x).decidedBy = e.decidedBy :=
    (withOperands_root (List.length_modify ..)).2.1
  have htake : (e.graft (i :: path) x).operands.take i = e.operands.take i := by
    refine List.ext_getElem? fun j ↦ ?_
    rw [operands_graft, List.getElem?_take, List.getElem?_take, List.getElem?_modify]
    split
    case isTrue hj => simp only [Nat.ne_of_gt hj, if_false, id_map']
    case isFalse => rfl
  rw [comesTo?, comesTo?, approach, approach, hdec, htake]

/-- A graft makes a difference only where the evaluation comes to the operand that it is made in. -/
theorem eval_graft_cons {x : Expr} (h : ∀ a c', e.operands[i]? = some a →
    env.comesTo? e i c = some c' → env.eval (a.graft path x) c' = env.eval a c') :
    env.eval (e.graft (i :: path) x) c = env.eval e c := by
  refine eval_withOperands (List.length_modify ..) fun j a b c' ha hb hc ↦ ?_
  rw [List.getElem?_modify, ha] at hb
  cases hb
  by_cases hij : i = j
  · subst hij
    simpa using h a c' ha hc
  · simp [hij]

/-- What is not visited is skipped. -/
theorem skips_of_visit?_eq_none (h : env.visit? path e c = none) : env.Skips e c path := by
  intro x
  induction path generalizing e c with
  | nil => cases h
  | cons i path ih =>
    refine eval_graft_cons fun a c' ha hc ↦ ih ?_
    rwa [visit?_cons ha, hc] at h

/-- A graft is visited where the tree was that it replaces. -/
theorem visit?_graft (h : env.visit? path e c = some (a, c')) (x : Expr) :
    env.visit? path (e.graft path x) c = some (x, c') := by
  induction path generalizing e c with
  | nil =>
    cases h
    rfl
  | cons i path ih =>
    obtain ⟨b, c₁, hb, hc, h⟩ := visit?_cons_eq_some_iff.1 h
    have hb' : (e.graft (i :: path) x).operands[i]? = some (b.graft path x) := by
      rw [operands_graft, List.getElem?_modify_eq, hb]
      rfl
    rw [visit?_cons hb', comesTo?_graft, hc, Option.bind_some, ih h]

/-- The same reference many times over. -/
theorem evalParts_replicate (n k : Nat) (c : Captures) :
    env.evalParts (List.replicate n (.backref k)) c =
      ⟨.ok (List.replicate n (c.text k)), c, List.replicate n (.backref k (c.text k))⟩ := by
  induction n with
  | zero => rfl
  | succ n ih =>
    have hread : Walk.backref k c = ⟨.ok (c.text k), c, [.backref k (c.text k)]⟩ := rfl
    rw [List.replicate_succ, evalParts, Walk.bind_ok _ hread]
    simp only [Walk.bind_ok _ ih, Walk.pure_apply, List.append_nil, List.replicate_succ,
      List.singleton_append]

/-- A noisy tree has as many events as it is asked for, from every slot. -/
theorem length_events_noisy (n : Nat) (c : Captures) :
    (env.eval (.noisy n) c).events.length = n := by
  rw [Expr.noisy, eval, Walk.bind_ok _ (evalParts_replicate n 0 c), Walk.pure_apply,
    List.append_nil, List.length_replicate]

/-- **What is skipped is what is not visited.** -/
theorem skips_iff : env.Skips e c path ↔ env.visit? path e c = none := by
  refine ⟨fun h ↦ ?_, skips_of_visit?_eq_none⟩
  rw [Option.eq_none_iff_forall_ne_some]
  rintro ⟨a, c'⟩ hv
  have hle := (events_of_visit? (visit?_graft hv
    (.noisy ((env.eval e c).events.length + 1)))).length_le
  rw [length_events_noisy, h] at hle
  omega

/-- A path that leads one operand further. -/
theorem skips_snoc_iff (hv : env.visit? path e c = some (a, c')) (hi : i < a.operands.length) :
    env.Skips e c (path ++ [i]) ↔ env.comesTo? a i c' = none := by
  have ha : a.operands[i]? = some a.operands[i] := List.getElem?_eq_getElem hi
  rw [skips_iff, visit?_append, hv, Option.bind_some, visit?_cons ha]
  cases env.comesTo? a i c' <;> simp [visit?]

end Environment

end RequestCondition

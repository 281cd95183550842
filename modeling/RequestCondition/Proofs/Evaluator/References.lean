import RequestCondition.Proofs.Evaluator.Actions
import RequestCondition.Proofs.Evaluator.Skipping

/-!
# Variables are asked for in the order of their references

`Expr.references` lists the references to variables in a tree as they are written, from left to
right, and a variable as often as it is referred to.  An evaluation works that list off: it asks for
nothing twice, for nothing out of order and for nothing else.  What it leaves out is in the trees
that it skips and behind the error that it ends with.

Two kinds of operands can be skipped (`Expr.Optional`), the right side of a logical operator and the
elements of a list.  `lookups_in_order` says when they are: where the left side decides, and where
an earlier element has the text looked for.

`Outcome.AsksFor` is the invariant.  It says of an outcome that the variables asked for are a
subsequence of a list of references, and that they are the whole list if nothing was skipped and a
value was reached.  Outcomes one behind another ask for what stands in two lists one behind another,
so the induction is over operands: the first `n` of them account for the first `n` parts of the list
(`asksFor_approach`).

The difficulty is in the second half.  That nothing is skipped is said of the tree as a whole, by
paths; in the induction it has to be known of each operand and from the groups that it starts with.
So what is skipped in an operand that is come to has to be skipped in the whole tree, which is
`SkipsNothing.of_cons`.  And where values decide, the operands behind them are skipped, so this does
not happen if nothing is.

When a tree is skipped is then told in terms of values, by what the evaluation comes to in front of
it.
-/

set_option autoImplicit false

namespace RequestCondition

/-- The variable that a part of a string refers to. -/
def StringPart.reference? : StringPart → Option VarRef
  | .text _ | .backref _ => none
  | .variable ref => some ref

namespace Expr

mutual

/-- The references to variables in a tree, from left to right. -/
def references : Expr → List VarRef
  | .boolean _ | .number _ | .backref _ => []
  | .string parts => parts.filterMap StringPart.reference?
  | .variable ref => [ref]
  | .not a | .isMatch _ a _ | .unaryTest _ a => references a
  | .logical _ a b | .comparison _ a b | .binaryTest _ a b => references a ++ references b
  | .isIn a as => references a ++ referencesAll as
  | .concat as | .call _ as => referencesAll as

/-- The references in some trees. -/
def referencesAll : List Expr → List VarRef
  | [] => []
  | a :: as => references a ++ referencesAll as

end

/-- The references in the root itself. -/
def ownReferences : Expr → List VarRef
  | .string parts => parts.filterMap StringPart.reference?
  | .variable ref => [ref]
  | _ => []

/-- References in some trees, tree by tree. -/
theorem referencesAll_eq_flatMap (as : List Expr) : referencesAll as = as.flatMap references := by
  induction as with
  | nil => rw [referencesAll, List.flatMap_nil]
  | cons a as ih => rw [referencesAll, List.flatMap_cons, ih]

theorem references_eq (e : Expr) :
    e.references = e.operands.flatMap references ++ e.ownReferences := by
  cases e <;> simp [references, operands, ownReferences, referencesAll_eq_flatMap]

/-- The trees that an evaluation may skip: right sides of logical operators, and elements of
lists. -/
inductive Optional (e : Expr) : List Nat → Prop
  | right {path : List Nat} {op : LogicalOp} {a b : Expr}
      (h : e.subtree? path = some (.logical op a b)) : Optional e (path ++ [1])
  | element {path : List Nat} {needle : Expr} {list : List Expr} {i : Nat}
      (h : e.subtree? path = some (.isIn needle list)) (hi : i < list.length) :
      Optional e (path ++ [i + 1])

theorem Optional.cons {e a : Expr} {i : Nat} {path : List Nat} (ha : e.operands[i]? = some a)
    (h : a.Optional path) : e.Optional (i :: path) := by
  have hsub (π : List Nat) : e.subtree? (i :: π) = a.subtree? π := by
    rw [subtree?, ha, Option.bind_some]
  cases h with
  | right h => exact .right ((hsub _).trans h)
  | element h hi => exact .element ((hsub _).trans h) hi

/-- What is behind values that decide is optional. -/
theorem Optional.of_decidedBy {e : Expr} {vs : List Value} {i : Nat} (h : e.decidedBy vs = true)
    (hi : i + 1 < e.operands.length) : e.Optional [i + 1] := by
  cases e with
  | logical op a b =>
    obtain rfl : i = 0 := Nat.lt_one_iff.1 (Nat.succ_lt_succ_iff.1 hi)
    have hroot : (logical op a b).subtree? [] = some (.logical op a b) := rfl
    exact .right hroot
  | isIn needle list =>
    have hroot : (isIn needle list).subtree? [] = some (.isIn needle list) := rfl
    exact .element hroot (Nat.succ_lt_succ_iff.1 hi)
  | _ => cases vs <;> cases h

end Expr

/-! ## Asking in order

The invariant, and that it is kept by going on. -/

/-- The variables asked for are among `refs`, in their order.  If `all` holds and a value is
reached, they are all of them. -/
structure Outcome.AsksFor {α : Type} (o : Outcome α) (refs : List VarRef) (all : Prop) : Prop where
  sublist : o.lookups.Sublist refs
  eq_of_ok : all → ∀ a, o.result = .ok a → o.lookups = refs

namespace Outcome.AsksFor

variable {α β : Type} {refs refs' : List VarRef} {all : Prop}

theorem of_eq {o : Outcome α} (h : o.lookups = refs) : o.AsksFor refs all :=
  ⟨h ▸ .refl _, fun _ _ _ ↦ h⟩

theorem mono {all' : Prop} {o : Outcome α} (h : o.AsksFor refs all) (hall : all' → all) :
    o.AsksFor refs all' :=
  ⟨h.sublist, fun h' ↦ h.eq_of_ok (hall h')⟩

/-- **What goes on asks for what stands behind.** -/
theorem bind {w : Walk α} {f : α → Walk β} {c : Captures} (hw : (w c).AsksFor refs all)
    (hf : ∀ a c', (w c).result = .ok a → (w c).captures = c' → (f a c').AsksFor refs' all) :
    ((w >>= f) c).AsksFor (refs ++ refs') all := by
  rcases ho : w c with ⟨err | a, c', es⟩
  · rw [ho] at hw
    rw [Walk.bind_error f ho]
    exact ⟨hw.sublist.trans (List.sublist_append_left ..), nofun⟩
  · rw [ho] at hw hf
    rw [Walk.bind_ok f ho]
    have hlookups : (es ++ (f a c').events).filterMap Event.lookup? =
        es.filterMap Event.lookup? ++ (f a c').lookups := List.filterMap_append
    have hf := hf a c' rfl rfl
    refine ⟨?_, fun hall b hb ↦ ?_⟩
    · rw [Outcome.lookups, hlookups]
      exact hw.sublist.append hf.sublist
    · rw [Outcome.lookups, hlookups, hf.eq_of_ok hall b hb]
      exact congrArg (· ++ refs') (hw.eq_of_ok hall a rfl)

theorem map {w : Walk α} {c : Captures} (h : (w c).AsksFor refs all) (f : α → β) :
    ((w >>= fun a ↦ pure (f a)) c).AsksFor refs all := by
  rw [← List.append_nil refs]
  exact h.bind fun _ _ _ _ ↦ .of_eq rfl

end Outcome.AsksFor

namespace Environment

open Outcome

/-- Nothing is skipped that may be. -/
def SkipsNothing (env : Environment) (e : Expr) (c : Captures) : Prop :=
  ∀ path, e.Optional path → ¬ env.Skips e c path

variable {env : Environment} {all : Prop}

/-- A variable is asked for once. -/
theorem asksFor_resolve (ref : VarRef) (c : Captures) :
    (env.resolve ref c).AsksFor [ref] all := by
  rw [resolve_apply]
  exact .of_eq rfl

/-- The parts of a string ask for their variables, one after another. -/
theorem asksFor_evalParts (ps : List StringPart) (c : Captures) :
    (env.evalParts ps c).AsksFor (ps.filterMap StringPart.reference?) all := by
  induction ps generalizing c with
  | nil => exact .of_eq rfl
  | cons p ps ih =>
    have hrest (s : String) (c' : Captures) :
        ((env.evalParts ps >>= fun ss ↦ pure (s :: ss)) c').AsksFor
          (ps.filterMap StringPart.reference?) all := (ih c').map _
    cases p with
    | text t =>
      rw [evalParts, pure_bind]
      exact hrest t c
    | «variable» ref =>
      rw [evalParts]
      refine (asksFor_resolve ref c).bind fun v c' _ _ ↦ ?_
      rw [pure_bind]
      exact hrest v.text c'
    | backref n =>
      have hread : (Walk.backref n c).AsksFor [] all := .of_eq rfl
      rw [evalParts]
      exact hread.bind fun s c' _ _ ↦ hrest s c'

/-- A root asks for the variables it refers to itself. -/
theorem asksFor_conclude (e : Expr) (vs : List Value) (c : Captures) :
    (env.conclude e vs c).AsksFor e.ownReferences all := by
  cases e with
  | string parts =>
    rw [conclude]
    exact (asksFor_evalParts parts c).map _
  | «variable» ref => exact asksFor_resolve ref c
  | comparison op a b =>
    rcases vs with _ | ⟨v, _ | ⟨w, _ | ⟨u, us⟩⟩⟩
    case cons.cons.nil =>
      have htell : (Walk.tell ((op.warnings v w).map .warning) c).AsksFor [] all := by
        refine .of_eq ?_
        rw [Outcome.lookups, Walk.tell, List.filterMap_map]
        exact List.filterMap_eq_nil_iff.2 fun _ _ ↦ rfl
      exact htell.map fun _ ↦ _
    all_goals exact .of_eq rfl
  | isMatch negated a regex =>
    rcases vs with _ | ⟨v, _ | ⟨w, us⟩⟩ <;> exact .of_eq rfl
  | not _ | logical _ _ _ =>
    rcases vs with _ | ⟨v, _ | ⟨w, _ | ⟨u, us⟩⟩⟩ <;> exact .of_eq rfl
  | _ => exact .of_eq rfl

variable {e a : Expr} {i : Nat} {path : List Nat} {c c' : Captures}

/-- What is skipped in an operand that is come to is skipped in the whole tree. -/
theorem SkipsNothing.of_cons (h : env.SkipsNothing e c) (ha : e.operands[i]? = some a)
    (hc : env.comesTo? e i c = some c') : env.SkipsNothing a c' := by
  intro path hpath hskips
  refine h (i :: path) (hpath.cons ha) ?_
  rw [skips_iff] at hskips ⊢
  rw [visit?_cons ha, hc, Option.bind_some, hskips]

/-- Every operand adds its own references, or none where those in front of it decide.  But then it
could be skipped, and was. -/
theorem asksFor_approach (e : Expr) (c : Captures)
    (ih : ∀ a ∈ e.operands, ∀ c', (env.eval a c').AsksFor a.references (env.SkipsNothing a c'))
    {n : Nat} (hn : n ≤ e.operands.length) :
    (env.approach e n c).AsksFor ((e.operands.take n).flatMap Expr.references)
      (env.SkipsNothing e c) := by
  induction n with
  | zero => exact .of_eq rfl
  | succ n ihn =>
    have ha : e.operands[n]? = some e.operands[n] := List.getElem?_eq_getElem hn
    have happ := ihn (Nat.le_of_succ_le hn)
    rw [approach_succ ha, List.take_succ_eq_append_getElem hn, List.flatMap_append,
      List.flatMap_singleton]
    refine happ.bind fun vs c' hvs hc' ↦ ?_
    have happ : env.approach e n c = ⟨.ok vs, c', (env.approach e n c).events⟩ := by
      rw [← hvs, ← hc']
    have hcomes := comesTo?_of_ok happ
    cases hd : e.decidedBy vs with
    | false =>
      rw [hd] at hcomes
      rw [evalUntil_cons hd]
      have hall (h : env.SkipsNothing e c) : env.SkipsNothing e.operands[n] c' :=
        h.of_cons ha hcomes
      exact ((ih _ (List.getElem_mem _) c').mono hall).map _
    | true =>
      rw [hd] at hcomes
      rw [evalUntil_of_stop hd]
      refine ⟨List.nil_sublist _, fun hall ↦ ?_⟩
      cases n with
      | zero =>
        -- no tree is decided before its first operand
        cases hvs
        rw [e.decidedBy_nil] at hd
        cases hd
      | succ i =>
        refine absurd (skips_iff.2 ?_) (hall [i + 1] (.of_decidedBy hd hn))
        rw [visit?_cons ha, hcomes]
        rfl

/-- **An evaluation asks for the references of its tree, in order.**  It comes to the operands in
the order in which their references are listed, and may stop before the end or leave some out. -/
theorem asksFor_eval (env : Environment) (e : Expr) (c : Captures) :
    (env.eval e c).AsksFor e.references (env.SkipsNothing e c) := by
  induction e using Expr.induction_operands generalizing c with
  | h e ih =>
    have happ := asksFor_approach e c ih (Nat.le_refl _)
    rw [eval_eq_approach e e.operands.length, Expr.references_eq, List.drop_length]
    rw [List.take_length] at happ
    refine happ.bind fun vs c' _ _ ↦ ?_
    rw [evalUntil, pure_bind]
    exact asksFor_conclude e vs c'

/-! ## What is skipped

Here the roots that have optional operands are looked at, the logical operators and the lists. -/

/-- The right side of a logical operator is skipped where the left one decides. -/
theorem skips_right_iff {op : LogicalOp} {b : Expr} {v : Value}
    (hsub : e.subtree? path = some (.logical op a b))
    (hv : env.resultAt? (path ++ [0]) e c = some (.ok v)) :
    env.Skips e c (path ++ [1]) ↔ op.decidedBy v.isTruthy = true := by
  obtain ⟨c', hvisit⟩ := exists_visit?_of_resultAt? hsub hv
  rw [resultAt?_append hvisit] at hv
  have happ : (env.approach (.logical op a b) 1 c').result = .ok [v] :=
    approach_succ_result Nat.zero_lt_two rfl hv
  rw [skips_snoc_iff hvisit Nat.one_lt_two, comesTo?_eq_none_iff happ]
  rfl

/-- The values of the needle and of the elements in front of one: they decide if one of them has the
text of the needle. -/
theorem approach_isIn {needle : Expr} {list : List Expr} {v : Value} (hi : i ≤ list.length)
    (hv : env.resultAt? [0] (.isIn needle list) c = some (.ok v))
    (herr : ∀ j < i, ∀ err, env.resultAt? [j + 1] (.isIn needle list) c ≠ some (.error err)) :
    ∃ ws, (env.approach (.isIn needle list) (i + 1) c).result = .ok (v :: ws) ∧
      ((Expr.isIn needle list).decidedBy (v :: ws) = true ↔
        ∃ j < i, ∃ w, env.resultAt? [j + 1] (.isIn needle list) c = some (.ok w) ∧
          w.text = v.text) := by
  induction i with
  | zero => exact ⟨[], approach_succ_result (Nat.zero_lt_succ _) rfl hv, by simp [Expr.decidedBy]⟩
  | succ i ih =>
    obtain ⟨ws, happ, hdec⟩ := ih (Nat.le_of_succ_le hi) fun j hj ↦ herr j (Nat.lt_succ_of_lt hj)
    have hlt : i + 1 < (Expr.isIn needle list).operands.length := Nat.succ_lt_succ hi
    have ha := List.getElem?_eq_getElem hlt
    have hres := @resultAt?_singleton env _ _ _ c ha
    cases hc : env.comesTo? (.isIn needle list) (i + 1) c with
    | none =>
      have hd := (comesTo?_eq_none_iff happ).1 hc
      refine ⟨ws, (congrArg Outcome.result (approach_succ_of_none ha hc)).trans happ, ?_⟩
      refine iff_of_true hd ?_
      obtain ⟨j, hj, hw⟩ := hdec.1 hd
      exact ⟨j, Nat.lt_succ_of_lt hj, hw⟩
    | some c' =>
      rw [hc, Option.map_some] at hres
      cases hw : (env.eval (Expr.isIn needle list).operands[i + 1] c').result with
      | error err => exact absurd (hw ▸ hres) (herr i (Nat.lt_succ_self i) err)
      | ok w =>
        rw [hw] at hres
        refine ⟨ws ++ [w], approach_succ_result hlt happ hres, ?_⟩
        have hstep : (Expr.isIn needle list).decidedBy (v :: (ws ++ [w])) = true ↔
            (Expr.isIn needle list).decidedBy (v :: ws) = true ∨ w.text = v.text := by
          simp [Expr.decidedBy]
        rw [hstep, hdec, Nat.exists_lt_succ_right, hres]
        simp

/-- An element of a list is skipped where one before it has the text of the needle. -/
theorem skips_element_iff {needle : Expr} {list : List Expr} {v : Value}
    (hsub : e.subtree? path = some (.isIn needle list)) (hi : i < list.length)
    (hv : env.resultAt? (path ++ [0]) e c = some (.ok v))
    (herr : ∀ j < i, ∀ err, env.resultAt? (path ++ [j + 1]) e c ≠ some (.error err)) :
    env.Skips e c (path ++ [i + 1]) ↔
      ∃ j < i, ∃ w, env.resultAt? (path ++ [j + 1]) e c = some (.ok w) ∧ w.text = v.text := by
  obtain ⟨c', hvisit⟩ := exists_visit?_of_resultAt? hsub hv
  simp only [resultAt?_append hvisit] at hv herr ⊢
  obtain ⟨ws, happ, hdec⟩ := approach_isIn (Nat.le_of_lt hi) hv herr
  rw [skips_snoc_iff hvisit (Nat.succ_lt_succ hi), comesTo?_eq_none_iff happ, hdec]

/-- **Variables are asked for at most once, and in the order of their references.**  An evaluation
asks for some of the variables that the tree refers to, in the order in which the references are
written, each reference once.  If it reaches a value and skips no right side of a logical operator
and no element of a list, it asks for them all.

A tree is skipped if it comes to nothing in the course of the evaluation, neither to a value nor to
an error.  A right side is skipped where the left side has a value that decides: a false one for
`&&`, a true one for `||`.  An element of a list is skipped where an element before it has the text
of the needle, as long as none of those before it ends in an error. -/
theorem lookups_in_order (env : Environment) (e : Expr) (c : Captures) :
    (env.eval e c).lookups.Sublist e.references ∧
    (∀ v, (env.eval e c).result = .ok v → env.SkipsNothing e c →
      (env.eval e c).lookups = e.references) ∧
    (∀ path, env.Skips e c path ↔ env.resultAt? path e c = none) ∧
    (∀ path op left right v, e.subtree? path = some (.logical op left right) →
      env.resultAt? (path ++ [0]) e c = some (.ok v) →
        (env.Skips e c (path ++ [1]) ↔
          op = .and ∧ v.isTruthy = false ∨ op = .or ∧ v.isTruthy = true)) ∧
    ∀ path needle list v i, e.subtree? path = some (.isIn needle list) → i < list.length →
      env.resultAt? (path ++ [0]) e c = some (.ok v) →
      (∀ j < i, ∀ err, env.resultAt? (path ++ [j + 1]) e c ≠ some (.error err)) →
        (env.Skips e c (path ++ [i + 1]) ↔
          ∃ j < i, ∃ w, env.resultAt? (path ++ [j + 1]) e c = some (.ok w) ∧ w.text = v.text) := by
  have h := asksFor_eval env e c
  refine ⟨h.sublist, fun v hv hall ↦ h.eq_of_ok hall v hv,
    fun path ↦ skips_iff.trans Option.map_eq_none_iff.symm, ?_, ?_⟩
  · intro path op left right v hsub hv
    rw [skips_right_iff hsub hv]
    cases op <;> simp [LogicalOp.decidedBy]
  · intro path needle list v i hsub hi hv herr
    exact skips_element_iff hsub hi hv herr

/-- Where the last element is the one looked for, all four variables are asked for; where the first
is, the last is skipped. -/
theorem lookups_in_order_list :
    let e : Expr := .logical .and (.variable ⟨"A", []⟩)
      (.isIn (.variable ⟨"B", []⟩) [.variable ⟨"C", []⟩, .variable ⟨"D", []⟩])
    let env (s : String) : Environment :=
      { context := fun ref ↦ .resolved (.string (if ref.name = s then "B" else ref.name))
        functions := .ofFunctions [] }
    ((env "D").SkipsNothing e .none ∧
      ((env "D").eval e .none).lookups = [⟨"A", []⟩, ⟨"B", []⟩, ⟨"C", []⟩, ⟨"D", []⟩]) ∧
    (env "C").Skips e .none [1, 2] := by
  intro e env
  have hall : (env "D").SkipsNothing e .none := by
    intro path hpath hskips
    rw [skips_iff] at hskips
    rcases hpath with @⟨path, op, a, b, h⟩ | @⟨path, needle, list, i, h, hi⟩ <;> dsimp only [e] at h
    · rcases path with _ | ⟨_ | _ | k, _ | ⟨_ | _ | _ | j, _ | ⟨l, path⟩⟩⟩ <;> cases h
      cases hskips
    · rcases path with _ | ⟨_ | _ | k, _ | ⟨_ | _ | _ | j, _ | ⟨l, path⟩⟩⟩ <;> cases h
      rcases i with _ | _ | i
      · cases hskips
      · cases hskips
      · exact absurd hi (Nat.not_lt.2 (Nat.le_add_left 2 i))
  obtain ⟨-, hcomplete, -⟩ := lookups_in_order (env "D") e .none
  obtain ⟨-, -, -, -, hskips⟩ := lookups_in_order (env "C") e .none
  have hfound := hskips [1] _ _ (.string "B") 1 rfl Nat.one_lt_two (by rfl) fun j hj err herr ↦ by
    obtain rfl : j = 0 := Nat.lt_one_iff.1 hj
    cases herr
  exact ⟨⟨hall, hcomplete _ (by rfl) hall⟩,
    hfound.2 ⟨0, Nat.zero_lt_one, .string "B", by rfl, rfl⟩⟩

end Environment

end RequestCondition

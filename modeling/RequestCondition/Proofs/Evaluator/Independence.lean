import RequestCondition.Proofs.Evaluator.Events
import RequestCondition.Proofs.Evaluator.Memory

/-!
# What an evaluation takes over from the matches before it

The only thing that an evaluation takes over from before is the slot with the groups of the last
match, and only references to groups read it.  A walk that reads none goes the same way wherever it
starts (`goesAlike_eval`): it makes the same searches, and it leaves the groups of the last of them.
Where there was none, it has not touched the slot.

Whether a walk reads a group need not be found out by walking.  Where no group is referred to in a
tree none is read (`eval_of_no_backrefs`).  Whether it makes a search depends on what it comes to:
it does where a match is evaluated and its subject has a value (`searches_ne_nil_iff`).

`Walk.GoesAlike` is a property of walks that is kept by going on.  The second walk starts from the
slot that the first one leaves, which may be another one than before, and that is why the property
is about all pairs of slots.  It asks for no group to be read from one of them, and says what
happens from the other; that none is read there follows.

To say when a match is evaluated, the tree is named by its path and the evaluation has to come to
it.  An error in the subject of a match is raised before the search is made, so such a match leaves
the slot alone, and `Matches` asks for a value.
-/

set_option autoImplicit false

namespace RequestCondition

/-- A walk that reads no group from one start goes the same way from any other: it has the same
result, the same things happen, and the slot is changed by its own searches alone. -/
def Walk.GoesAlike (α : Type) (w : Walk α) : Prop :=
  ∀ c c', (∀ n text, .backref n text ∉ (w c).events) →
    w c' = ⟨(w c).result, c'.after (Event.searches (w c).events), (w c).events⟩

namespace Walk.GoesAlike

variable {α β : Type}

/-- Walks that go alike go on alike. -/
theorem bind {w : Walk α} {f : α → Walk β} (hw : Walk.GoesAlike α w)
    (hf : ∀ a, Walk.GoesAlike β (f a)) : Walk.GoesAlike β (w >>= f) := by
  intro c c' hnone
  have hw := hw c
  rcases ho : w c with ⟨err | a, c₁, es⟩
  · rw [bind_error f ho] at hnone ⊢
    rw [ho] at hw
    rw [bind_error f (hw c' hnone)]
  · rw [bind_ok f ho] at hnone ⊢
    rw [ho] at hw
    simp only [List.mem_append, not_or] at hnone
    have hfirst (c : Captures) := hw c fun n text ↦ (hnone n text).1
    obtain rfl : c₁ = c.after (Event.searches es) :=
      (Outcome.mk.inj (ho.symm.trans (hfirst c))).2.1
    have hsecond := hf a _ (c'.after (Event.searches es)) fun n text ↦ (hnone n text).2
    rw [bind_ok f (hfirst c'), hsecond]
    simp only [Event.searches_append, Captures.after_append]

/-- A step that leaves the slot alone, and is the same wherever it is made. -/
theorem of_forall {w : Walk α} {r : Except EvalError α} {es : List Event}
    (hw : ∀ c, w c = ⟨r, c, es⟩) (hs : Event.searches es = []) : Walk.GoesAlike α w := by
  intro c c' _
  rw [hw, hw, hs, Captures.after_nil]

end Walk.GoesAlike

namespace Environment

variable {env : Environment} {e : Expr}

/-- **An evaluation that reads no group goes the same way from every slot.** -/
theorem goesAlike_eval (env : Environment) (e : Expr) : Walk.GoesAlike Value (env.eval e) := by
  refine eval_of_actions ?_ e
  exact {
    pure := fun _ ↦ .of_forall (fun _ ↦ rfl) rfl
    bind := fun hw hf ↦ hw.bind hf
    resolve := fun ref ↦ .of_forall (env.resolve_apply ref) rfl
    call := fun _ _ ↦ .of_forall (fun _ ↦ rfl) rfl
    search := fun regex subject c c' _ ↦ by
      refine congrArg (Outcome.mk _ · _) ?_
      exact (Captures.after_snoc c' [] ⟨regex, subject, _⟩).symm
    backref := fun n c c' hnone ↦ absurd (List.mem_singleton_self _) (hnone n (c.text n))
    warn := fun records ↦ .of_forall (fun _ ↦ rfl) (Event.searches_eq_nil_iff.2 (by simp)) }

/-- Where no group is referred to, an evaluation is the same from any slot, but for the slot. -/
theorem exists_eval_eq (he : e.backrefs = []) (env : Environment) :
    ∃ r evs, ∀ c, env.eval e c = ⟨r, c.after (Event.searches evs), evs⟩ := by
  refine ⟨_, _, fun c ↦ goesAlike_eval env e .none c fun n text h ↦ ?_⟩
  have := mem_backrefs_of_backref h
  rw [he] at this
  cases this

/-- Where there is no match either, the slot is left alone. -/
theorem exists_eval_eq_still (he : e.backrefs = []) (hregex : e.regexes = []) (env : Environment) :
    ∃ r evs, ∀ c, env.eval e c = ⟨r, c, evs⟩ := by
  obtain ⟨r, evs, heval⟩ := exists_eval_eq he env
  have hnone : Event.searches evs = [] := by
    refine Event.searches_eq_nil_iff.2 fun ev hev regex subject found heq ↦ ?_
    have hmem : regex ∈ e.regexes := mem_regexes_of_search (by rwa [heval .none, ← heq])
    rw [hregex] at hmem
    cases hmem
  refine ⟨r, evs, fun c ↦ ?_⟩
  rw [heval, hnone, Captures.after_nil]

/-! ## Matches that are evaluated

A search is an event that only a match makes, and a match that has a value has made one. -/

/-- A match in the tree is evaluated, and its subject has a value. -/
def Matches (env : Environment) (e : Expr) (c : Captures) : Prop :=
  ∃ path negated subject regex v, e.subtree? path = some (.isMatch negated subject regex) ∧
    env.resultAt? path e c = some (.ok v)

/-- A match comes to a value if its subject does. -/
theorem exists_eval_isMatch_of_approach {negated : Bool} {a : Expr} {regex : RegexLiteral}
    {c : Captures} {vs : List Value}
    (h : (env.approach (.isMatch negated a regex) 1 c).result = .ok vs) :
    ∃ v, (env.eval (.isMatch negated a regex) c).result = .ok v := by
  rcases ho : env.approach (.isMatch negated a regex) 1 c with ⟨r, c', evs⟩
  rw [ho] at h
  subst h
  rw [eval_of_approach ho]
  rcases vs with _ | ⟨v, _ | ⟨w, ws⟩⟩ <;> exact ⟨_, rfl⟩

/-- A match that has a value has made its search. -/
theorem search_mem_events {negated : Bool} {a : Expr} {regex : RegexLiteral} {c : Captures}
    {v : Value} (h : (env.eval (.isMatch negated a regex) c).result = .ok v) :
    ∃ subject found, .search regex subject found ∈
      (env.eval (.isMatch negated a regex) c).events := by
  rw [eval] at h ⊢
  rcases ho : env.eval a c with ⟨err | w, c', evs⟩
  · rw [Walk.bind_error _ ho] at h
    cases h
  · rw [Walk.bind_ok _ ho]
    exact ⟨w.text, _, List.mem_append_right _ List.mem_cons_self⟩

/-- A search is made exactly where a match is evaluated. -/
theorem searches_ne_nil_iff {c : Captures} :
    Event.searches (env.eval e c).events ≠ [] ↔ env.Matches e c := by
  constructor
  · intro h
    obtain ⟨s, hs⟩ := List.exists_mem_of_ne_nil _ h
    obtain ⟨ev, hev, hsearch⟩ := List.mem_filterMap.1 hs
    obtain ⟨path, a, c₁, hv, hmakes, vs, happ⟩ := exists_visit_of_mem_events hev
    cases hmakes with
    | search negated b regex subject found =>
      obtain ⟨v, hresult⟩ := exists_eval_isMatch_of_approach happ
      exact ⟨path, negated, b, regex, v, subtree?_of_visit? hv,
        (resultAt?_of_visit? hv).trans (congrArg some hresult)⟩
    | part _ h => cases h <;> cases hsearch
    | _ => cases hsearch
  · rintro ⟨path, negated, a, regex, v, hsub, hv⟩ hnil
    obtain ⟨c', hvisit⟩ := exists_visit?_of_resultAt? hsub (by rwa [List.append_nil])
    rw [resultAt?_of_visit? hvisit, Option.some_inj] at hv
    obtain ⟨subject, found, hmem⟩ := search_mem_events hv
    exact Event.searches_eq_nil_iff.1 hnil _ ((events_of_visit? hvisit).subset hmem) _ _ _ rfl

/-- **Without references to groups, earlier matches make no difference.**  If no group is referred
to in a tree, neither on its own nor in a string, its evaluation has the same result from any two
slots, and the same things happen in the same order, so it makes the same lookups.  If a match is
evaluated on the way, both evaluations leave the same groups; if none is, each leaves the slot as it
was. -/
theorem eval_of_no_backrefs (env : Environment) {e : Expr} (he : e.backrefs = [])
    (c₁ c₂ : Captures) :
    (env.eval e c₁).result = (env.eval e c₂).result ∧
      (env.eval e c₁).lookups = (env.eval e c₂).lookups ∧
      (env.eval e c₁).events = (env.eval e c₂).events ∧
      (env.Matches e c₁ ↔ env.Matches e c₂) ∧
      (env.Matches e c₁ → (env.eval e c₁).captures = (env.eval e c₂).captures) ∧
      (¬ env.Matches e c₁ → (env.eval e c₁).captures = c₁ ∧ (env.eval e c₂).captures = c₂) := by
  obtain ⟨r, evs, heval⟩ := exists_eval_eq he env
  simp only [← searches_ne_nil_iff, Outcome.lookups, heval]
  refine ⟨trivial, trivial, trivial, trivial, fun hne ↦ ?_, fun hnil ↦ ?_⟩
  · exact Captures.after_of_ne_nil c₁ c₂ hne
  · rw [not_not.1 hnil]
    exact ⟨rfl, rfl⟩

/-- The first operand is a match, and what it finds is not asked for. -/
theorem eval_of_no_backrefs_conjunction :
    let e : Expr := .logical .and (.isMatch true (.variable ⟨"A", []⟩) ⟨"x", false⟩)
      (.string [.text "b", .variable ⟨"B", []⟩])
    let env : Environment := {
      context := fun ref ↦ .resolved (.string ref.name), functions := .ofFunctions [] }
    let old : Captures := ⟨["v1", "1"]⟩
    e.backrefs = [] ∧ env.Matches e .none ∧
      (env.eval e .none).captures = (env.eval e old).captures ∧
      (env.eval e .none).lookups = (env.eval e old).lookups := by
  intro e env old
  have he : e.backrefs = [] := rfl
  have hmatch : env.Matches e .none := ⟨[0], _, _, _, _, rfl, rfl⟩
  obtain ⟨-, hlookups, -, -, hcaptures, -⟩ := eval_of_no_backrefs env he .none old
  exact ⟨he, hmatch, hcaptures hmatch, hlookups⟩

end Environment

end RequestCondition

import RequestCondition.Proofs.Evaluator.Memory

/-!
# Strict and lenient bindings

The same variables can be looked up strictly, where an unknown one is refused, or leniently, where
it reads as the empty text.  An evaluation cannot tell the two apart until it asks for a variable
that is unknown, and the strict one ends there.

`Strictly` relates the outcomes of a lenient and a strict walk in this way.  It is kept by going on
from one step to the next, so `Actions.Simulates.eval` carries it over to every tree
(`eval_strict`).

There are two cases of the relation, and they are exclusive: the outcomes are equal, or the strict
one is a front part of the other with an error at its end.  If the first part of a walk is of the
second kind, the strict walk has ended and what the lenient one goes on to do does not matter; it
adds events behind those that are compared.

The slot of the strict walk is that at the place where it ends.  It is known from the searches
before that place, so the relation also says of the lenient walk that its slot is known from its
searches.  Without that the second part of a walk could not be compared, as it would not be known
from where it starts.
-/

set_option autoImplicit false

namespace RequestCondition

namespace Bindings

/-- Why strict bindings refuse a variable. -/
def refusal (ref : VarRef) : String := "variable '" ++ ref.key ++ "' is not defined"

end Bindings

namespace Environment

variable {values : Dictionary Value} {functions : FunctionTable} {engine : Regex.Engine}

/-- The environment where unknown variables are refused, or are not. -/
def ofBindings (values : Dictionary Value) (strict : Bool) (functions : FunctionTable)
    (engine : Regex.Engine) : Environment :=
  ⟨(Bindings.mk values strict).context, functions, engine⟩

/-- Whether a variable is known. -/
def Bound (values : Dictionary Value) (ref : VarRef) : Prop :=
  (values.find? ref.key).isSome = true

/-- How the outcome of a strict walk follows from that of the lenient one: it is the same, if every
variable asked for is known, and otherwise the walk ends where the first one is asked for that is
not. -/
inductive Strictly (values : Dictionary Value) (start : Captures) {α : Type}
    (lenient : Outcome α) : Outcome α → Prop
  | same (h : ∀ ref ∈ lenient.lookups, Bound values ref) : Strictly values start lenient lenient
  | stops {before after : List Event} {ref : VarRef}
      (hev : lenient.events = before ++ .lookup ref .unresolved :: after)
      (hbefore : ∀ ref' ∈ before.filterMap Event.lookup?, Bound values ref')
      (href : ¬ Bound values ref) :
      Strictly values start lenient
        ⟨.error (.refusedLookup ref.name (Bindings.refusal ref)),
          start.after (Event.searches before),
          before ++ [.lookup ref (.refused (Bindings.refusal ref))]⟩

/-- A lenient and a strict walk, from the same slot.  The slot left behind is part of it, since it
is where the next walk starts. -/
def StrictlyWalks (values : Dictionary Value) (α : Type) (w w' : Walk α) : Prop :=
  ∀ c, (w c).captures = c.after (Event.searches (w c).events) ∧ Strictly values c (w c) (w' c)

/-- Events that ask for known variables only may be put in front of both outcomes.  Where the second
walk stops, they belong to what was before, and so do their searches. -/
theorem Strictly.behind {α : Type} {start : Captures} {es : List Event} {o o' : Outcome α}
    (hes : ∀ ref ∈ es.filterMap Event.lookup?, Bound values ref)
    (h : Strictly values (start.after (Event.searches es)) o o') :
    Strictly values start ⟨o.result, o.captures, es ++ o.events⟩
      ⟨o'.result, o'.captures, es ++ o'.events⟩ := by
  cases h with
  | same h =>
    refine .same fun ref href ↦ ?_
    rw [Outcome.lookups, List.filterMap_append] at href
    exact (List.mem_append.1 href).elim (hes ref) (h ref)
  | @stops before after ref hev hbefore href =>
    have hev' : es ++ o.events = (es ++ before) ++ .lookup ref .unresolved :: after := by
      rw [hev, List.append_assoc]
    have hbefore' : ∀ ref' ∈ (es ++ before).filterMap Event.lookup?, Bound values ref' := by
      intro ref' href'
      rw [List.filterMap_append] at href'
      exact (List.mem_append.1 href').elim (hes ref') (hbefore ref')
    simp only
    rw [← Captures.after_append, ← Event.searches_append, ← List.append_assoc]
    exact .stops hev' hbefore' href

/-- **Lenient and strict walks go on to be related.**  A strict walk that has ended does not go on,
and the events of the lenient one are put behind those that it has.  Where both go on, the events of
the first part are put in front of both outcomes. -/
theorem StrictlyWalks.bind {α β : Type} {w w' : Walk α} {f f' : α → Walk β}
    (hw : StrictlyWalks values α w w') (hf : ∀ a, StrictlyWalks values β (f a) (f' a)) :
    StrictlyWalks values β (w >>= f) (w' >>= f') := by
  intro c
  obtain ⟨hc, hs⟩ := hw c
  rcases ho : w c with ⟨e | a, c₁, es₁⟩
  · rw [ho] at hc hs
    rw [Walk.bind_error f ho]
    refine ⟨hc, ?_⟩
    generalize ho' : w' c = o' at hs
    cases hs with
    | same h =>
      rw [Walk.bind_error f' ho']
      exact .same h
    | stops hev hbefore href =>
      rw [Walk.bind_error f' ho']
      exact .stops hev hbefore href
  · rw [ho] at hc hs
    simp only at hc
    obtain ⟨hc₂, hs₂⟩ := hf a c₁
    rw [Walk.bind_ok f ho, Event.searches_append, Captures.after_append, ← hc]
    refine ⟨hc₂, ?_⟩
    generalize ho' : w' c = o' at hs
    cases hs with
    | @stops before after ref hev hbefore href =>
      rw [Walk.bind_error f' ho']
      have hev' : es₁ ++ (f a c₁).events =
          before ++ .lookup ref .unresolved :: (after ++ (f a c₁).events) := by
        simp only at hev
        rw [hev, List.append_assoc, List.cons_append]
      exact .stops hev' hbefore href
    | same h =>
      rw [Walk.bind_ok f' ho']
      exact .behind h (hc ▸ hs₂)

/-- A step that asks for no variable. -/
theorem StrictlyWalks.of_forall {α : Type} {w : Walk α}
    (hc : ∀ c, (w c).captures = c.after (Event.searches (w c).events))
    (h : ∀ c, (w c).lookups = []) : StrictlyWalks values α w w := by
  refine fun c ↦ ⟨hc c, .same ?_⟩
  rw [h c]
  exact fun _ ↦ nofun

/-- Only a question for an unknown variable is answered in two ways. -/
theorem StrictlyWalks.resolve (ref : VarRef) :
    StrictlyWalks values Value ((ofBindings values false functions engine).resolve ref)
      ((ofBindings values true functions engine).resolve ref) := by
  intro c
  rw [resolve_apply, resolve_apply]
  refine ⟨rfl, ?_⟩
  cases h : values.find? ref.key with
  | some v =>
    have hlookup (strict : Bool) :
        (ofBindings values strict functions engine).context ref = .resolved v := by
      simp only [ofBindings, Bindings.context, h]
    rw [hlookup, hlookup]
    refine .same fun ref' href' ↦ ?_
    cases List.mem_singleton.1 href'
    rw [Bound, h]
    rfl
  | none =>
    have hlenient : (ofBindings values false functions engine).context ref = .unresolved := by
      simp only [ofBindings, Bindings.context, h, Bool.false_eq_true, if_false]
    have hstrict : (ofBindings values true functions engine).context ref =
        .refused (Bindings.refusal ref) := by
      simp only [ofBindings, Bindings.context, h, if_true, Bindings.refusal]
    have href : ¬ Bound values ref := by simp [Bound, h]
    rw [hlenient, hstrict]
    exact @Strictly.stops values c Value _ [] [] ref rfl (by simp) href

/-- Asking for variables is the only action that knows whether the bindings are strict. -/
theorem actions_strictly (values : Dictionary Value) (functions : FunctionTable)
    (engine : Regex.Engine) :
    Actions.Simulates (ofBindings values false functions engine).actions
      (ofBindings values true functions engine).actions (StrictlyWalks values) where
  pure x := .of_forall (fun _ ↦ rfl) (fun _ ↦ rfl)
  bind h h' := h.bind h'
  resolve := .resolve
  call name args := .of_forall (fun _ ↦ rfl) (fun _ ↦ rfl)
  search regex subject := .of_forall (fun _ ↦ rfl) (fun _ ↦ rfl)
  backref n := .of_forall (fun _ ↦ rfl) (fun _ ↦ rfl)
  warn records := by
    have hnone (es : List LogRecord) : Event.searches (es.map .warning) = [] ∧
        (es.map Event.warning).filterMap Event.lookup? = [] := by
      simp [Event.searches, List.filterMap_map, Event.search?, Event.lookup?]
    refine .of_forall (fun c ↦ ?_) fun c ↦ (hnone records).2
    exact congrArg c.after (hnone records).1.symm

/-- **Strict and lenient bindings differ at unknown variables only.**  Either the lenient walk asks
for variables that are known and the strict walk has the same outcome, or there is a first one that
is not known; then the strict walk ends there, with the error that names it, after the same events
and with the slot as it is then.  So where the strict walk reaches a value, it is the value that the
lenient one reaches. -/
theorem eval_strict (values : Dictionary Value) (functions : FunctionTable)
    (engine : Regex.Engine) (e : Expr) (start : Captures) :
    let lenient := (ofBindings values false functions engine).eval e start
    let strict := (ofBindings values true functions engine).eval e start
    ((∀ ref ∈ lenient.lookups, Bound values ref) ∧ strict = lenient ∨
      ∃ before ref after, lenient.events = before ++ .lookup ref .unresolved :: after ∧
        (∀ ref' ∈ before.filterMap Event.lookup?, Bound values ref') ∧ ¬ Bound values ref ∧
        strict.result = .error (.refusedLookup ref.name (Bindings.refusal ref)) ∧
        strict.captures = start.after (Event.searches before) ∧
        strict.events = before ++ [.lookup ref (.refused (Bindings.refusal ref))]) ∧
      ∀ v, strict.result = .ok v → strict = lenient := by
  obtain ⟨-, h⟩ := (actions_strictly values functions engine).eval e start
  rw [← eval_eq, ← eval_eq] at h
  intro lenient strict
  change Strictly values start lenient strict at h
  generalize strict = s at h
  cases h with
  | same h => exact ⟨.inl ⟨h, rfl⟩, fun _ _ ↦ rfl⟩
  | stops hev hbefore href =>
    exact ⟨.inr ⟨_, _, _, hev, hbefore, href, rfl, rfl, rfl⟩, nofun⟩

end Environment

end RequestCondition

import RequestCondition.Proofs.Evaluator.Alike
import RequestCondition.Proofs.Evaluator.Events

/-!
# Calls that can be checked beforehand

An evaluation can fail for want of a function, for a wrong number of arguments, because the host
refuses a variable, or because a function cannot use its arguments.  The first two can be seen in
the tree.  A table covers a tree if it has every function that is called there, with as many
arguments as are given (`FunctionTable.Covers`); then an evaluation that is refused no variable
fails only by the reply of a function that has been run.

Of the built-in functions two can reply in this way, `unescape` and `-ipmatch`, and always with a
type error (`Builtin.Fails`).  And none of them asks for an argument that it was not given, though
after the arguments have been counted a body takes from the list what it likes
(`Builtin.bodies_complete`).

Three facts about evaluations carry the proof, and none of them is about functions.  What is called
is called by a tree inside the one that is evaluated, with as many arguments as that tree has
operands (`mem_callees_of_call`).  An error is the answer to the last question asked
(`exists_raises_of_error`).  And a question can fail only by the host or by a function.  So a table
that covers the tree is asked for nothing that it does not have.

For the built-in functions one has to go through their list once, and see of each body whether it
can reply with an error (`bodies_total`).  Most bodies are made of a function from texts to values
or to truths, and are total for that reason; the two that are not are named, with what they fail on.

That a body is complete is part of a `Function`, so a call of one always has a reply.  The last
clause of the theorem says it of the bodies in the list, each with the number of arguments that
stands beside it.
-/

set_option autoImplicit false

namespace RequestCondition

/-- A body that replies with a value whatever the arguments. -/
def FunctionBody.Total (b : FunctionBody) : Prop :=
  ∀ args, ∀ reply ∈ b.run args, ∃ v, reply.result = .ok v

namespace FunctionTable

variable {t : FunctionTable} {name : String} {args : List Value} {reply : Reply}

/-- The number of arguments of the function with a name. -/
def arity? (t : FunctionTable) (name : String) : Option Nat := (t.find? name).map Function.arity

/-- Whatever a tree calls is in the table, and takes as many arguments as it is given operands. -/
def Covers (t : FunctionTable) (e : Expr) : Prop :=
  ∀ callee ∈ e.callees, t.arity? callee.1 = some callee.2

instance (t : FunctionTable) (e : Expr) : Decidable (t.Covers e) :=
  inferInstanceAs (Decidable (∀ callee ∈ e.callees, t.arity? callee.1 = some callee.2))

/-- A function of the table is run on some arguments, and replies. -/
def Invokes (t : FunctionTable) (name : String) (args : List Value) (reply : Reply) : Prop :=
  ∃ f, t.find? name = some f ∧ args.length = f.arity ∧ f.body.run args = some reply

/-- What is run is what a call replies. -/
theorem call_of_invokes (h : t.Invokes name args reply) : t.call name args = reply := by
  obtain ⟨f, hf, hlen, hrun⟩ := h
  rw [f.run_eq_some_call hlen, Option.some.injEq] at hrun
  rw [call, hf, ← hrun]

/-- A function that is given as many arguments as it takes is run. -/
theorem exists_invokes (h : t.arity? name = some args.length) :
    ∃ reply, t.Invokes name args reply := by
  obtain ⟨f, hf, harity⟩ := Option.map_eq_some_iff.1 h
  exact ⟨f.call args, f, hf, harity.symm, f.run_eq_some_call harity.symm⟩

end FunctionTable

/-! ## The built-in functions

What a body replies depends on the texts of its first arguments. -/

namespace Builtin

/-- A body that takes a text takes that of its first argument. -/
theorem exists_of_run_ofText {n : Nat} {f : String → Reply} {args : List Value} {reply : Reply}
    (h : (FunctionBody.mk n (ofText f)).run args = some reply) :
    ∃ v, args[0]? = some v ∧ f v.text = reply :=
  Option.map_eq_some_iff.1 h

theorem exists_of_run_ofTexts {n : Nat} {f : String → String → Reply} {args : List Value}
    {reply : Reply} (h : (FunctionBody.mk n (ofTexts f)).run args = some reply) :
    ∃ v w, args[0]? = some v ∧ args[1]? = some w ∧ f v.text w.text = reply := by
  obtain ⟨v, hv, h⟩ := Option.bind_eq_some_iff.1 h
  obtain ⟨w, hw, h⟩ := Option.map_eq_some_iff.1 h
  exact ⟨v, w, hv, hw, h⟩

/-- A body is total if it replies with a value to every text. -/
theorem ofText_total {f : String → Reply} (hf : ∀ s, ∃ v, (f s).result = .ok v) (n : Nat) :
    (FunctionBody.mk n (ofText f)).Total := by
  intro args reply hrun
  obtain ⟨v, -, rfl⟩ := exists_of_run_ofText hrun
  exact hf _

theorem value_total (n : Nat) (f : String → Value) : (FunctionBody.mk n (value f)).Total :=
  ofText_total (fun s ↦ ⟨f s, rfl⟩) n

theorem test_total (n : Nat) (p : String → Bool) : (FunctionBody.mk n (test p)).Total :=
  value_total n _

theorem test₂_total (n : Nat) (p : String → String → Bool) :
    (FunctionBody.mk n (test₂ p)).Total := by
  intro args reply hrun
  obtain ⟨v, w, -, -, rfl⟩ := exists_of_run_ofTexts hrun
  exact ⟨_, rfl⟩

theorem fileText_total (fs : FileSystem) (n : Nat) :
    (FunctionBody.mk n (ofText (fileText fs))).Total := by
  refine ofText_total (fun s ↦ ?_) n
  simp only [fileText]
  split
  · exact ⟨_, rfl⟩
  · split <;> exact ⟨_, rfl⟩

/-- A text that cannot be decoded is an argument of the wrong type. -/
theorem kind_of_unescape_eq_error {s : String} {err : EvalError} (h : unescape s = .error err) :
    err.kind = .typeMismatch := by
  simp only [unescape] at h
  split at h
  · cases h
    rfl
  · split at h
    · cases h
    · cases h
      rfl

/-- A text that is no address and one that is no network are arguments of the wrong type. -/
theorem kind_of_inNetwork_eq_error {address network : String} {err : EvalError}
    (h : inNetwork address network = .error err) : err.kind = .typeMismatch := by
  delta inNetwork at h
  cases hc : Block.containsText? address network with
  | some b =>
    rw [hc] at h
    cases h
  | none =>
    rw [hc] at h
    cases h
    rfl

/-- Two built-in functions can fail. -/
theorem bodies_total (fs : FileSystem) : ∀ entry ∈ bodies fs, entry.2.Total ∨
    entry = ("unescape", ⟨1, ofText fun s ↦ .ofExcept (unescape s)⟩) ∨
    entry = ("-ipmatch", ⟨2, ofTexts fun s t ↦ .ofExcept (inNetwork s t)⟩) := by
  simp only [bodies, List.forall_mem_cons, value_total, test_total, test₂_total, fileText_total,
    true_or, or_true, true_and]
  exact List.forall_mem_nil _

/-- The arguments that a built-in function cannot use. -/
inductive Fails : String → List Value → EvalError → Prop
  | unescape {v : Value} {err : EvalError} (h : Builtin.unescape v.text = .error err) :
      Fails "unescape" [v] err
  | inNetwork {v w : Value} {err : EvalError} (h : Builtin.inNetwork v.text w.text = .error err) :
      Fails "-ipmatch" [v, w] err

/-- What the built-in functions fail with is a type error. -/
theorem Fails.kind_eq {name : String} {args : List Value} {err : EvalError}
    (h : Fails name args err) : err.kind = .typeMismatch := by
  cases h with
  | unescape h => exact kind_of_unescape_eq_error h
  | inNetwork h => exact kind_of_inNetwork_eq_error h

/-- **A built-in function fails on what is listed in `Fails`, and on nothing else.**  All bodies but
two are total, and of those two the failures are in the list. -/
theorem fails_of_invokes {fs : FileSystem} {name : String} {args : List Value} {reply : Reply}
    {err : EvalError} (h : (FunctionTable.builtin fs).Invokes name args reply)
    (herr : reply.result = .error err) : Fails name args err := by
  obtain ⟨f, hf, hlen, hrun⟩ := h
  rw [Function.arity] at hlen
  obtain htotal | heq | heq := bodies_total fs _ (FunctionTable.mem_bodies_of_find? hf)
  · obtain ⟨v, hv⟩ := htotal args reply hrun
    rw [hv] at herr
    cases herr
  · obtain ⟨rfl, hbody⟩ := Prod.mk.inj heq
    rw [hbody] at hlen hrun
    obtain ⟨v, rfl⟩ := List.length_eq_one_iff.1 hlen
    simp only [ofText_singleton, Option.some.injEq] at hrun
    subst hrun
    exact .unescape herr
  · obtain ⟨rfl, hbody⟩ := Prod.mk.inj heq
    rw [hbody] at hlen hrun
    obtain ⟨v, w, rfl⟩ := List.length_eq_two.1 hlen
    simp only [ofTexts_pair, Option.some.injEq] at hrun
    subst hrun
    simp only [Reply.ofExcept] at herr
    exact .inNetwork herr

end Builtin

/-! ## Trees that are covered

Now the table is put together with the events of an evaluation. -/

namespace Environment

variable {env : Environment} {e : Expr} {c : Captures}

/-- What is called in a tree that is covered is run. -/
theorem exists_invokes_of_mem_calls (hcovers : env.functions.Covers e) {name : String}
    {args : List Value} (h : (name, args) ∈ (env.eval e c).calls) :
    ∃ reply, env.functions.Invokes name args reply := by
  obtain ⟨ev, hev, hcall⟩ := List.mem_filterMap.1 h
  cases ev <;> cases hcall
  exact FunctionTable.exists_invokes (hcovers _ (mem_callees_of_call hev))

/-- An error in a tree that is covered is the reply to the last call. -/
theorem exists_invokes_of_error (hcovers : env.functions.Covers e)
    (hcontext : ∀ ref reason, env.context ref ≠ .refused reason) {err : EvalError}
    (h : (env.eval e c).result = .error err) :
    ∃ name args reply, (env.eval e c).calls.getLast? = some (name, args) ∧
      env.functions.Invokes name args reply ∧ reply.result = .error err := by
  obtain ⟨ev, hev, hraises⟩ := exists_raises_of_error h
  obtain ⟨before, hevents⟩ := List.getLast?_eq_some_iff.1 hev
  cases hraises with
  | refused href => exact absurd href (hcontext _ _)
  | @call name args _ log hcall =>
    have hcalls : (env.eval e c).calls = before.filterMap Event.call? ++ [(name, args)] := by
      rw [Outcome.calls, hevents, List.filterMap_append]
      rfl
    have hmem : (name, args) ∈ (env.eval e c).calls := by simp [hcalls]
    obtain ⟨reply, hreply⟩ := exists_invokes_of_mem_calls hcovers hmem
    refine ⟨name, args, reply, by rw [hcalls, List.getLast?_concat], hreply, ?_⟩
    rw [← FunctionTable.call_of_invokes hreply, hcall]

/-- **Trees that are covered do not go wrong.**  If the table covers a tree and the host refuses no
variable, an evaluation ends with a value, or with the error that the function called last has
replied; whatever is called is in the table and is run.  With the built-in functions, for any file
system, such an error is a type error, about a text that `unescape` cannot decode or one that is no
network for `-ipmatch`.

No body of the built-in functions asks for more arguments than the number beside it; such a function
is run if that number of arguments is given, and its reply is that of the body. -/
theorem eval_of_covers (env : Environment) {e : Expr} (hcovers : env.functions.Covers e)
    (hcontext : ∀ ref reason, env.context ref ≠ .refused reason) (start : Captures) :
    ((∃ v, (env.eval e start).result = .ok v) ∨
      ∃ err name args reply, (env.eval e start).result = .error err ∧
        (env.eval e start).calls.getLast? = some (name, args) ∧
        env.functions.Invokes name args reply ∧ reply.result = .error err) ∧
    (∀ name args, (name, args) ∈ (env.eval e start).calls →
      ∃ reply, env.functions.Invokes name args reply) ∧
    ∀ fs, env.functions = .builtin fs →
      (∀ err, (env.eval e start).result = .error err → err.kind = .typeMismatch ∧
        ∃ name args, (env.eval e start).calls.getLast? = some (name, args) ∧
          Builtin.Fails name args err) ∧
      (∀ entry ∈ Builtin.bodies fs, ∀ args, args.length = entry.2.arity →
        (entry.2.run args).isSome) ∧
      ∀ name f args, (FunctionTable.builtin fs).find? name = some f →
        (name, f.body) ∈ Builtin.bodies fs ∧
        (args.length = f.arity → f.body.run args = some (f.call args)) ∧
        (args.length ≠ f.arity → f.call args = .error (.arity f.name f.arity args.length)) := by
  refine ⟨?_, fun name args h ↦ exists_invokes_of_mem_calls hcovers h,
    fun fs hfs ↦ ⟨?_, Builtin.bodies_complete fs, ?_⟩⟩
  · cases h : (env.eval e start).result with
    | ok v => exact .inl ⟨v, rfl⟩
    | error err =>
      obtain ⟨name, args, reply, hlast, hreply, herr⟩ :=
        exists_invokes_of_error hcovers hcontext h
      exact .inr ⟨err, name, args, reply, rfl, hlast, hreply, herr⟩
  · intro err h
    obtain ⟨name, args, reply, hlast, hreply, herr⟩ := exists_invokes_of_error hcovers hcontext h
    rw [hfs] at hreply
    have hfails := Builtin.fails_of_invokes hreply herr
    exact ⟨hfails.kind_eq, name, args, hlast, hfails⟩
  · intro name f args hf
    exact ⟨FunctionTable.mem_bodies_of_find? hf, f.run_eq_some_call, f.call_of_length_ne⟩

/-- The first test does not decide, and then there is a percent sign without digits. -/
theorem eval_of_covers_unescape :
    let e : Expr := .logical .or (.unaryTest "-z" (.variable ⟨"A", []⟩))
      (.call "unescape" [.variable ⟨"A", []⟩])
    let env : Environment := {
      context := fun _ ↦ .resolved (.string "50%"), functions := .builtin .empty }
    env.functions.Covers e ∧ (∀ ref reason, env.context ref ≠ .refused reason) ∧
      (env.eval e .none).result = .error (.badPercentEncoding "50%") ∧
      Builtin.Fails "unescape" [.string "50%"] (.badPercentEncoding "50%") := by
  intro e env
  have hcovers : env.functions.Covers e := by decide
  have hcontext : ∀ ref reason, env.context ref ≠ .refused reason := nofun
  have hresult : (env.eval e .none).result = .error (.badPercentEncoding "50%") := by decide
  have hcalls : (env.eval e .none).calls.getLast? = some ("unescape", [.string "50%"]) := by decide
  obtain ⟨-, -, hbuiltin⟩ := eval_of_covers env hcovers hcontext .none
  obtain ⟨-, name, args, hlast, hfails⟩ := (hbuiltin .empty rfl).1 _ hresult
  rw [hcalls] at hlast
  obtain ⟨rfl, rfl⟩ := Prod.mk.inj (Option.some.inj hlast)
  exact ⟨hcovers, hcontext, hresult, hfails⟩

end Environment

end RequestCondition

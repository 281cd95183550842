import Mathlib.Data.List.Induction
import RequestCondition.Function.Builtin
import RequestCondition.Proofs.Decimal.Text
import RequestCondition.Proofs.Evaluator.Independence

/-!
# A list as a chain of comparisons

`n in {a, b, c}` says what `n == a || n == b || n == c` says, and stops where the chain stops.  But
the chain evaluates `n` again for every element that it comes to, and in between the elements may
have left other groups.  So `n` has to be a tree that neither reads groups nor leaves any; then it
is the same walk every time (`exists_eval_eq_still`), and all that the chain does differently is to
do again what happens in `n` (`Walk.Repeats`).

`Walk.Repeats again` relates two walks that end alike, where the second one does more on the way:
its events are those of the first, cut into sections, with the events `again` in front of each.  It
is a relation that is kept by going on, and the sections are put one behind the other.  How many
there are is not said, since that depends on how far the list is gone through; one section belongs
to each element that is come to.

A needle that ends in an error is a case by itself: the list and the chain both end there, in front
of all elements.

The induction is on the list from its end, because the chain is grouped to the left and grows at the
end as well (`equalsOneOf_snoc`).
-/

set_option autoImplicit false

namespace RequestCondition

/-- `needle == first || needle == e₂ || …`, grouped to the left. -/
def Expr.equalsOneOf (needle first : Expr) (rest : List Expr) : Expr :=
  rest.foldl (fun chain e ↦ .logical .or chain (.comparison ⟨false, .equal⟩ needle e))
    (.comparison ⟨false, .equal⟩ needle first)

/-- One more element at the end is one more comparison behind the chain. -/
theorem Expr.equalsOneOf_snoc (needle first : Expr) (rest : List Expr) (e : Expr) :
    needle.equalsOneOf first (rest ++ [e]) =
      .logical .or (needle.equalsOneOf first rest) (.comparison ⟨false, .equal⟩ needle e) := by
  rw [equalsOneOf, List.foldl_concat, ← equalsOneOf]

/-- The second walk ends where the first does, and on its way the events `again` happen in addition,
in front of each of some sections of the first. -/
structure Outcome.Repeats {α : Type} (again : List Event) (o o' : Outcome α) : Prop where
  result : o'.result = o.result
  captures : o'.captures = o.captures
  events : ∃ sections : List (List Event), o.events = sections.flatten ∧
    o'.events = sections.flatMap (again ++ ·)

/-- Walks whose outcomes are related in this way wherever they start. -/
def Walk.Repeats {α : Type} (again : List Event) (w w' : Walk α) : Prop :=
  ∀ c, (w c).Repeats again (w' c)

namespace Walk.Repeats

variable {α β : Type} {again : List Event}

theorem pure (a : α) : Walk.Repeats again (Pure.pure a) (Pure.pure a) :=
  fun _ ↦ ⟨rfl, rfl, [], rfl, rfl⟩

/-- What is repeated on the way is repeated in both parts of it. -/
theorem bind {w w' : Walk α} {f f' : α → Walk β} (hw : Walk.Repeats again w w')
    (hf : ∀ a, Walk.Repeats again (f a) (f' a)) : Walk.Repeats again (w >>= f) (w' >>= f') := by
  intro c
  obtain ⟨hr, hc, parts, hes, hes'⟩ := hw c
  rcases ho : w c with ⟨r, c₁, es⟩
  rcases ho' : w' c with ⟨r', c₁', es'⟩
  rw [ho, ho'] at hr hc
  rw [ho] at hes
  rw [ho'] at hes'
  simp only at hr hc hes hes'
  subst hr hc
  cases r' with
  | error err =>
    rw [Walk.bind_error f ho, Walk.bind_error f' ho']
    exact ⟨rfl, rfl, parts, hes, hes'⟩
  | ok a =>
    rw [Walk.bind_ok f ho, Walk.bind_ok f' ho']
    obtain ⟨hr₂, hc₂, parts₂, hes₂, hes₂'⟩ := hf a c₁'
    refine ⟨hr₂, hc₂, parts ++ parts₂, ?_, ?_⟩
    · rw [List.flatten_append, ← hes, ← hes₂]
    · rw [List.flatMap_append, ← hes', ← hes₂']

/-- Where a walk is the same from every slot and leaves it alone, making it again adds what happens
on it. -/
theorem again_bind {w : Walk α} {a : α} (hw : ∀ c, w c = ⟨.ok a, c, again⟩) (f : α → Walk β) :
    Walk.Repeats again (f a) (w >>= f) := by
  intro c
  rw [Walk.bind_ok f (hw c)]
  exact ⟨rfl, rfl, [(f a c).events], by simp, by simp⟩

end Walk.Repeats

namespace Environment

variable {env : Environment} {needle : Expr}

/-- A comparison of texts takes the left value first. -/
theorem eval_textual_equal (a b : Expr) : env.eval (.comparison ⟨false, .equal⟩ a b) =
    env.eval a >>= fun v ↦ env.eval b >>= fun w ↦ pure (.boolean (w.text == v.text)) := by
  rw [eval]
  refine congrArg _ (funext fun v ↦ congrArg _ (funext fun w ↦ ?_))
  have htell : Walk.tell ((CmpOp.warnings ⟨false, .equal⟩ v w).map .warning) = pure () := rfl
  have hholds : CmpOp.holds ⟨false, .equal⟩ v w = (w.text == v.text) := by
    rw [Bool.eq_iff_iff, Value.holds_textual_equal_iff, beq_iff_eq, eq_comm]
  rw [htell, pure_bind, hholds]

theorem evalIn_singleton (text : String) (e : Expr) :
    env.evalIn text [e] = env.eval e >>= fun v ↦ pure (v.text == text) := by
  rw [evalIn]
  refine congrArg _ (funext fun v ↦ ?_)
  split
  case isTrue h => rw [h]
  case isFalse h => rw [evalIn, Bool.eq_false_iff.2 h]

/-- The chain grows at its end, and so does the search through the list. -/
theorem repeats_equalsOneOf {v : Value} {again : List Event}
    (hneedle : ∀ c, env.eval needle c = ⟨.ok v, c, again⟩) (first : Expr) (rest : List Expr) :
    Walk.Repeats again (env.evalIn v.text (first :: rest) >>= fun found ↦ pure (.boolean found))
      (env.eval (needle.equalsOneOf first rest)) := by
  have helement (e : Expr) :
      Walk.Repeats again (env.evalIn v.text [e] >>= fun found ↦ pure (.boolean found))
        (env.eval (.comparison ⟨false, .equal⟩ needle e)) := by
    rw [evalIn_singleton, bind_assoc, eval_textual_equal]
    simp only [pure_bind]
    exact .again_bind hneedle fun v ↦ env.eval e >>= fun w ↦ pure (Value.boolean (w.text == v.text))
  induction rest using List.reverseRecOn with
  | nil => exact helement first
  | append_singleton rest e ih =>
    have hlist : (env.evalIn v.text (first :: (rest ++ [e])) >>= fun found ↦
        pure (Value.boolean found)) =
        (env.evalIn v.text (first :: rest) >>= fun found ↦ pure (Value.boolean found)) >>= fun u ↦
          if LogicalOp.or.decidedBy u.isTruthy then pure (.boolean u.isTruthy)
          else (env.evalIn v.text [e] >>= fun found ↦ pure (Value.boolean found)) >>= fun w ↦
            pure (.boolean w.isTruthy) := by
      rw [← List.cons_append, evalIn_append, bind_assoc, bind_assoc]
      refine congrArg _ (funext fun found ↦ ?_)
      cases found <;> simp [LogicalOp.decidedBy]
    rw [hlist, Expr.equalsOneOf_snoc, eval]
    refine ih.bind fun u ↦ ?_
    split
    · exact .pure _
    · exact (helement e).bind fun w ↦ .pure _

/-- A needle that ends in an error is the end of the chain. -/
theorem eval_equalsOneOf_of_error {c c' : Captures} {err : EvalError} {evs : List Event}
    (h : env.eval needle c = ⟨.error err, c', evs⟩) (first : Expr) (rest : List Expr) :
    env.eval (needle.equalsOneOf first rest) c = ⟨.error err, c', evs⟩ := by
  induction rest using List.reverseRecOn with
  | nil => exact (congrFun (eval_textual_equal needle first) c).trans (Walk.bind_error _ h)
  | append_singleton rest e ih => rw [Expr.equalsOneOf_snoc, eval, Walk.bind_error _ ih]

/-- **Membership is a chain of comparisons.**  Let the needle refer to no group and contain no
match.  Then to look for it in a list ends as the chain `needle == e₁ || needle == e₂ || …` does:
with the same value or error, and with the same groups.  The same things happen on the way, cut into
sections; but in the list what happens in the needle happens once, in front of all sections, and in
the chain again in front of each. -/
theorem eval_equalsOneOf (env : Environment) {needle : Expr} (hbackrefs : needle.backrefs = [])
    (hregexes : needle.regexes = []) (first : Expr) (rest : List Expr) (start : Captures) :
    let o := env.eval (.isIn needle (first :: rest)) start
    let o' := env.eval (needle.equalsOneOf first rest) start
    o'.result = o.result ∧ o'.captures = o.captures ∧
      ∃ sections : List (List Event),
        o.events = (env.eval needle start).events ++ sections.flatten ∧
        o'.events = sections.flatMap ((env.eval needle start).events ++ ·) := by
  obtain ⟨r, evs, hneedle⟩ := exists_eval_eq_still hbackrefs hregexes env
  intro o o'
  cases r with
  | error err =>
    have ho : o = ⟨.error err, start, evs⟩ := by
      change env.eval (.isIn needle (first :: rest)) start = _
      rw [eval, Walk.bind_error _ (hneedle start)]
    have ho' : o' = ⟨.error err, start, evs⟩ :=
      eval_equalsOneOf_of_error (hneedle start) first rest
    rw [ho, ho', hneedle]
    exact ⟨rfl, rfl, [[]], by simp, by simp⟩
  | ok v =>
    obtain ⟨hr, hc, sections, hes, hes'⟩ := repeats_equalsOneOf hneedle first rest start
    have ho : o = env.eval (.isIn needle (first :: rest)) start := rfl
    rw [eval, Walk.bind_ok _ (hneedle start)] at ho
    rw [ho, hneedle]
    exact ⟨hr, hc, sections, congrArg (evs ++ ·) hes, hes'⟩

/-- The first element is a match that leaves groups, the second is the needle, and the third is not
come to; the chain asks for `A` twice. -/
theorem eval_equalsOneOf_match :
    let needle : Expr := .call "strlen" [.variable ⟨"A", []⟩]
    let first : Expr := .isMatch false (.variable ⟨"B", []⟩) ⟨"^x", false⟩
    let rest : List Expr := [.text "2", .variable ⟨"C", []⟩]
    let env : Environment := {
      context := fun ref ↦ .resolved (.string ("x" ++ ref.name)), functions := .builtin .empty }
    needle.backrefs = [] ∧ needle.regexes = [] ∧
      (env.eval (needle.equalsOneOf first rest) .none).result = .ok (.boolean true) ∧
      (env.eval (needle.equalsOneOf first rest) .none).captures = ⟨["x"]⟩ ∧
      (env.eval (.isIn needle (first :: rest)) .none).lookups = [⟨"A", []⟩, ⟨"B", []⟩] ∧
      (env.eval (needle.equalsOneOf first rest) .none).lookups =
        [⟨"A", []⟩, ⟨"B", []⟩, ⟨"A", []⟩] := by
  intro needle first rest env
  have hbackrefs : needle.backrefs = [] := rfl
  have hregexes : needle.regexes = [] := rfl
  obtain ⟨hresult, hcaptures, -⟩ := eval_equalsOneOf env hbackrefs hregexes first rest .none
  exact ⟨hbackrefs, hregexes, hresult.trans (by decide), hcaptures.trans (by decide), by decide,
    by decide⟩

end Environment

end RequestCondition

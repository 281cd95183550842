import RequestCondition.Proofs.Evaluator.Phrasing

/-!
# Strings and concatenations

`"a%{X}$1"` can be written as `"a" . %{X} . $1`, without a reference inside a string.  The one is a
single tree whose parts are read by `Environment.evalParts`, which knows nothing of trees; the other
is evaluated part by part like any concatenation, and what stands there could be anything.  They are
the same walk.  Each part of a string is a tree (`StringPart.tree`), and reading the part is taking
the text of that tree's value (`evalParts_cons`).

The text of a variable's value is the same on both sides, whatever type the value has, and a
variable that the host refuses ends both at the same place.  By `eval_of_replaces` the two can stand
in each other's place in any tree, and `eval_interpolated` says so.

The equation is one of walks.  So it holds from any slot, whether there is a value at the end or an
error, and with it all that an outcome consists of.  Lists of parts are arbitrary here: an empty
list, a single part or text next to text are no exceptions, though a parser gives none of these as a
concatenation.
-/

set_option autoImplicit false

namespace RequestCondition

/-- The tree that says the same as a part of a string. -/
def StringPart.tree : StringPart → Expr
  | .text t => .text t
  | .variable ref => .variable ref
  | .backref n => .backref n

/-- A string and the concatenation of what its parts say. -/
inductive Expr.Interpolates : Expr → Expr → Prop
  | parts (parts : List StringPart) :
      Interpolates (.string parts) (.concat (parts.map StringPart.tree))

namespace Environment

variable {env : Environment}

theorem eval_text (s : String) : env.eval (.text s) = pure (.string s) := by
  simp only [Expr.text, eval, evalParts, pure_bind, String.join_cons, String.join_nil,
    String.append_empty]

/-- Reading a part of a string is evaluating its tree, for the text of its value. -/
theorem evalParts_cons (part : StringPart) (parts : List StringPart) :
    env.evalParts (part :: parts) = (do
      let v ← env.eval part.tree
      let texts ← env.evalParts parts
      pure (v.text :: texts)) := by
  cases part with
  | text t => simp only [StringPart.tree, eval_text, evalParts, pure_bind, Value.text_string]
  | «variable» ref => simp only [StringPart.tree, eval, evalParts, pure_bind]
  | backref n =>
    simp only [StringPart.tree, eval, evalParts, bind_assoc, pure_bind, Value.text_string]

/-- The texts of the parts are the texts of the values, whatever is done with them. -/
theorem evalParts_bind {α : Type} (parts : List StringPart) (f : List String → Walk α) :
    env.evalParts parts >>= f =
      env.evalAll (parts.map StringPart.tree) >>= fun vs ↦ f (vs.map Value.text) := by
  induction parts generalizing f with
  | nil => simp only [List.map_nil, evalParts, evalAll, pure_bind]
  | cons part parts ih =>
    rw [evalParts_cons, List.map_cons, evalAll]
    simp only [bind_assoc, pure_bind]
    exact congrArg _ (funext fun v ↦ ih fun texts ↦ f (v.text :: texts))

/-- **The concatenation of the trees of some parts is the string of the parts.** -/
theorem eval_concat_trees (parts : List StringPart) :
    env.eval (.concat (parts.map StringPart.tree)) = env.eval (.string parts) := by
  rw [eval, eval]
  exact (evalParts_bind parts fun texts ↦ pure (Value.string (String.join texts))).symm

/-- **A string says what the concatenation of its parts says.**  The two have the same result, value
or error, from any groups of an earlier match; they leave the same groups, and do the same things in
the same order, so they make the same lookups.  The same is true of trees in which any number of
strings were replaced by such concatenations. -/
theorem eval_interpolated (env : Environment) (start : Captures) :
    (∀ parts : List StringPart,
      let spelledOut : Expr := .concat (parts.map StringPart.tree)
      (env.eval spelledOut start).result = (env.eval (.string parts) start).result ∧
        (env.eval spelledOut start).captures = (env.eval (.string parts) start).captures ∧
        (env.eval spelledOut start).lookups = (env.eval (.string parts) start).lookups ∧
        (env.eval spelledOut start).events = (env.eval (.string parts) start).events) ∧
    ∀ e e' : Expr, e.Replaces Expr.Interpolates e' →
      (env.eval e' start).result = (env.eval e start).result ∧
        (env.eval e' start).captures = (env.eval e start).captures ∧
        (env.eval e' start).lookups = (env.eval e start).lookups ∧
        (env.eval e' start).events = (env.eval e start).events := by
  constructor
  · intro parts spelledOut
    have heval : env.eval spelledOut = env.eval (.string parts) := eval_concat_trees parts
    rw [heval]
    exact ⟨rfl, rfl, rfl, rfl⟩
  · intro e e' h
    have heval : env.eval e' = env.eval e := by
      refine eval_of_replaces (fun a b hab ↦ ?_) h
      obtain ⟨parts⟩ := hab
      exact eval_concat_trees parts
    rw [heval]
    exact ⟨rfl, rfl, rfl, rfl⟩

/-- `!strlen("a%{N}$1")` becomes `!strlen("a" . %{N} . $1)`, and the `"a"` in there once more a
concatenation, of one part.  `N` is a number, and the first group of the match before is a `b`. -/
theorem eval_interpolated_argument :
    let e : Expr := .not (.call "strlen" [.string [.text "a", .variable ⟨"N", []⟩, .backref 1]])
    let e' : Expr := .not (.call "strlen"
      [.concat [.concat [.text "a"], .variable ⟨"N", []⟩, .backref 1]])
    let env : Environment := {
      context := fun _ ↦ .resolved (.number (.ofNat 12)), functions := .builtin .empty }
    let start : Captures := ⟨["ab", "b"]⟩
    e.Replaces Expr.Interpolates e' ∧
      (env.eval e' start).result = .ok (.boolean false) ∧
      (env.eval e' start).lookups = [⟨"N", []⟩] := by
  intro e e' env start
  let middle : Expr := .not (.call "strlen"
    [.concat [.text "a", .variable ⟨"N", []⟩, .backref 1]])
  have houter : e.ReplacesOne Expr.Interpolates middle :=
    @Expr.ReplacesOne.graft _ e [0, 0] _ _ rfl (.parts [.text "a", .variable ⟨"N", []⟩, .backref 1])
  have hinner : middle.ReplacesOne Expr.Interpolates e' :=
    @Expr.ReplacesOne.graft _ middle [0, 0, 0] _ _ rfl (.parts [.text "a"])
  have h : e.Replaces Expr.Interpolates e' := (Relation.ReflTransGen.single houter).tail hinner
  obtain ⟨hresult, -, hlookups, -⟩ := (eval_interpolated env start).2 e e' h
  exact ⟨h, hresult.trans (by decide), hlookups.trans (by decide)⟩

end Environment

end RequestCondition

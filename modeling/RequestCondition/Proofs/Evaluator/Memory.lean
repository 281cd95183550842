import RequestCondition.Proofs.Evaluator.Actions

/-!
# What a reference to a group reads

The evaluator keeps the groups of one match at a time.  A walk overwrites them at every match, and
whatever comes in between leaves them alone, so a reference reads the groups of the match before it.

What that is can be said without the slot.  `Regex.Reads found n text` says it for one search that
has found `found`: a reference to the group `n` reads the text that the group has taken, and nothing
at all if there is no match, no such group, or the group took no part.  `Captures.ReadsBehind` says
it for a reference behind any number of searches: the last of them counts, and the slot at the start
if there was none.  `Captures.HoldsBehind` says what is in the slot there.

A walk is then compared with an evaluation that never forgets.  `recalling` has no slot; it keeps
every search that has been made, and where a reference stands it looks for the last of them.
`eval_recalls` has the two agree on every tree, and on the account that the walk gives of itself:
what each search has found, what each reference has read, and what is in the slot at the end.

The two evaluations have different states, a slot and a list of searches.  `Recalls` relates them:
from the slot that some searches leave, the walk goes as the other evaluation does with these
searches in its memory.  That is kept by going on from one step to the next, and has to be seen of
the actions only: a search adds itself to the memory and overwrites the slot, a reference reads in
both, and the others do neither.

The relation carries the slot as it is computed (`Captures.after`), since equations are easier to
keep up along a walk than cases.  What the slot comes to is a matter of one search, and
`readsBehind_iff` takes it back to the cases in the end.
-/

set_option autoImplicit false

namespace RequestCondition

/-! ## Reading a group

Here is what a reference reads, case by case, and that the slot has it.  The rest of the file talks
about the slot, which is easier to carry along, and comes back to the cases at the end. -/

namespace Regex

/-- What a reference to the group `n` reads behind a search that has found `found`. -/
inductive Reads : Option Groups → Nat → String → Prop
  /-- The group has taken a text. -/
  | group {groups : Groups} {n : Nat} {text : String} (h : groups[n]? = some (some text)) :
      Reads (some groups) n text
  /-- The group took no part in the match. -/
  | noPart {groups : Groups} {n : Nat} (h : groups[n]? = some none) : Reads (some groups) n ""
  | noGroup {groups : Groups} {n : Nat} (h : groups.length ≤ n) : Reads (some groups) n ""
  | noMatch (n : Nat) : Reads none n ""

/-- The text that a reference reads, by the cases of `Reads`. -/
def textOf (found : Option Groups) (n : Nat) : String :=
  match found with
  | none => ""
  | some groups =>
    match groups[n]? with
    | some (some text) => text
    | some none => ""
    | none => ""

/-- There is one text that a reference reads. -/
theorem reads_iff {found : Option Groups} {n : Nat} {text : String} :
    Reads found n text ↔ text = textOf found n := by
  constructor
  · intro h
    cases h with
    | group h => rw [textOf, h]
    | noPart h => rw [textOf, h]
    | noGroup h => rw [textOf, List.getElem?_eq_none h]
    | noMatch => rfl
  · rintro rfl
    cases found with
    | none => exact .noMatch n
    | some groups =>
      rw [textOf]
      cases h : groups[n]? with
      | none => exact .noGroup (List.getElem?_eq_none_iff.1 h)
      | some group =>
        cases group with
        | none => exact .noPart h
        | some text => exact .group h

end Regex

/-- A search that a match makes, and what it finds. -/
structure Search where
  regex : RegexLiteral
  subject : String
  found : Option Regex.Groups
deriving DecidableEq

namespace Captures

/-- What a reference reads behind some searches, where the slot held `start` before them: what it
reads behind the last of them.  If there was none it reads from the start, where a group that is not
there counts as empty. -/
def ReadsBehind (start : Captures) (searches : List Search) (n : Nat) (text : String) : Prop :=
  match searches.getLast? with
  | some s => Regex.Reads s.found n text
  | .none => start.groups[n]? = some text ∨ start.groups.length ≤ n ∧ text = ""

/-- What is in the slot behind some searches: as many groups as the last of them has found, and each
as a reference to it reads; none, if that search has found no match.  If there was no search, it is
what was there before. -/
def HoldsBehind (start : Captures) (searches : List Search) (slot : Captures) : Prop :=
  match searches.getLast? with
  | some s =>
    slot.groups.length = (s.found.getD []).length ∧
      ∀ n text, slot.groups[n]? = some text → Regex.Reads s.found n text
  | .none => slot = start

/-! ## The slot

How the slot changes along a list of searches, by equations: it is overwritten by the last one. -/

/-- The groups at hand behind some searches: those of the last one, or those from before if there
was none. -/
def after (start : Captures) (searches : List Search) : Captures :=
  match searches.getLast? with
  | some s => .ofFound s.found
  | .none => start

@[simp] theorem after_nil (start : Captures) : start.after [] = start := rfl

@[simp] theorem after_snoc (start : Captures) (searches : List Search) (s : Search) :
    start.after (searches ++ [s]) = .ofFound s.found := by
  rw [after, List.getLast?_concat]

/-- Behind a search, what was at hand before is forgotten. -/
theorem after_of_ne_nil (start start' : Captures) {searches : List Search} (h : searches ≠ []) :
    start.after searches = start'.after searches := by
  obtain ⟨searches, s, rfl⟩ := (List.eq_nil_or_concat searches).resolve_left h
  rw [List.concat_eq_append, after_snoc, after_snoc]

/-- Behind two lists of searches the second one counts, unless it is empty. -/
theorem after_append (start : Captures) (h h' : List Search) :
    start.after (h ++ h') = (start.after h).after h' := by
  rcases List.eq_nil_or_concat h' with rfl | ⟨h', s, rfl⟩
  · rw [List.append_nil, after_nil]
  · rw [List.concat_eq_append, ← List.append_assoc, after_snoc, after_snoc]

/-- A slot that a search has filled gives what the search has found. -/
theorem text_ofFound (found : Option Regex.Groups) (n : Nat) :
    (ofFound found).text n = Regex.textOf found n := by
  cases found with
  | none => rfl
  | some groups =>
    rw [text, group?, groups_ofFound, List.getElem?_map, Option.getD_some, Regex.textOf]
    cases groups[n]? with
    | none => rfl
    | some group => cases group <;> rfl

/-- **The slot gives what a reference has to read.** -/
theorem readsBehind_iff {start : Captures} {searches : List Search} {n : Nat} {text : String} :
    start.ReadsBehind searches n text ↔ text = (start.after searches).text n := by
  rw [ReadsBehind, after]
  cases searches.getLast? with
  | some s => rw [text_ofFound, ← Regex.reads_iff]
  | none =>
    simp only [Captures.text, group?]
    cases h : start.groups[n]? with
    | none => simp [List.getElem?_eq_none_iff.1 h]
    | some t =>
      have hlt := (List.getElem?_eq_some_iff.1 h).1
      simp [Nat.not_le.2 hlt, eq_comm]

/-- The slot holds what it has to hold. -/
theorem holdsBehind_after (start : Captures) (searches : List Search) :
    start.HoldsBehind searches (start.after searches) := by
  rw [HoldsBehind, after]
  cases searches.getLast? with
  | none => rfl
  | some s =>
    constructor
    · rw [groups_ofFound, List.length_map]
    · intro n text h
      rw [Regex.reads_iff, ← text_ofFound, Captures.text, group?, h, Option.getD_some]

end Captures

namespace Event

/-- The search made. -/
def search? : Event → Option Search
  | search regex subject found => some ⟨regex, subject, found⟩
  | _ => none

/-- The searches among some events, in order. -/
def searches (es : List Event) : List Search := es.filterMap search?

@[simp] theorem searches_append (es es' : List Event) :
    searches (es ++ es') = searches es ++ searches es' :=
  List.filterMap_append

theorem searches_eq_nil_iff {es : List Event} : searches es = [] ↔
    ∀ ev ∈ es, ∀ regex subject found, ev ≠ .search regex subject found := by
  rw [searches, List.filterMap_eq_nil_iff]
  refine forall₂_congr fun ev _ ↦ ?_
  cases ev <;> simp [search?]

/-- Whether a walk that starts from some groups can give the account `es` of itself: each search
finds what the engine finds, and each reference reads what it has to behind the searches before
it. -/
structure Faithful (engine : Regex.Engine) (start : Captures) (es : List Event) : Prop where
  search (regex : RegexLiteral) (subject : String) (found : Option Regex.Groups) :
    .search regex subject found ∈ es →
      found = engine.find? regex.pattern regex.ignoreCase subject
  backref (before after : List Event) (n : Nat) (text : String) :
    es = before ++ .backref n text :: after → start.ReadsBehind (searches before) n text

namespace Faithful

variable {engine : Regex.Engine} {start : Captures} {es es' : List Event}

/-- Events of other kinds say nothing about groups. -/
theorem of_forall (hs : ∀ ev ∈ es, ∀ regex subject found, ev ≠ .search regex subject found)
    (hb : ∀ ev ∈ es, ∀ n text, ev ≠ .backref n text) : Faithful engine start es := by
  constructor
  · intro regex subject found h
    exact absurd rfl (hs _ h regex subject found)
  · rintro before after n text rfl
    exact absurd rfl (hb _ (by simp) n text)

/-- An account may go on from the slot that its first part leaves. -/
theorem append (h : Faithful engine start es)
    (h' : Faithful engine (start.after (searches es)) es') :
    Faithful engine start (es ++ es') := by
  constructor
  · intro regex subject found hmem
    exact (List.mem_append.1 hmem).elim (h.search _ _ _) (h'.search _ _ _)
  · intro before after n text heq
    obtain ⟨us, rfl, hus⟩ | ⟨us, rfl, hus⟩ := List.append_eq_append_iff.1 heq
    · rw [searches_append, Captures.readsBehind_iff, Captures.after_append,
        ← Captures.readsBehind_iff]
      exact h'.backref us after n text hus
    · cases us with
      | nil =>
        rw [List.append_nil] at h'
        have hread := h'.backref [] after n text hus.symm
        rwa [Captures.readsBehind_iff] at hread ⊢
      | cons u us =>
        obtain ⟨rfl, -⟩ := List.cons.inj hus
        exact h.backref before us n text rfl

end Faithful

end Event

/-! ## Evaluating with a memory of every search

The second evaluator is the first one with other actions.  So nothing is said twice about trees, and
what a reference reads is looked up in what has happened. -/

/-- Evaluation that remembers the searches it has made. -/
abbrev Recall := ExceptT EvalError (StateM (List Search))

namespace Recall

variable {α β : Type}

theorem bind_ok {x : Recall α} {h h' : List Search} {a : α} (f : α → Recall β)
    (hx : x h = (.ok a, h')) : (x >>= f) h = f a h' := by
  change (match x h with | (r, h'') => ExceptT.bindCont f r h'') = _
  rw [hx]
  rfl

theorem bind_error {x : Recall α} {h h' : List Search} {e : EvalError} (f : α → Recall β)
    (hx : x h = (.error e, h')) : (x >>= f) h = (.error e, h') := by
  change (match x h with | (r, h'') => ExceptT.bindCont f r h'') = _
  rw [hx]
  rfl

end Recall

/-- What the memory says about a group: what the last search has found, and if there was none, what
was there at the start. -/
def recollect (start : Captures) (searches : List Search) (n : Nat) : String :=
  match searches.getLast? with
  | some s => Regex.textOf s.found n
  | none => start.groups[n]?.getD ""

/-- The memory and the slot say the same. -/
theorem recollect_eq (start : Captures) (searches : List Search) (n : Nat) :
    recollect start searches n = (start.after searches).text n := by
  rw [recollect, Captures.after]
  cases searches.getLast? with
  | some s => exact (Captures.text_ofFound s.found n).symm
  | none => rfl

namespace Environment

/-- The actions of an evaluation with a memory: there is no slot for groups, and a reference looks
the last search up in the memory. -/
def recalling (env : Environment) (start : Captures) : Actions Recall where
  resolve ref :=
    match env.context ref with
    | .resolved v => pure v
    | .unresolved => pure (.string "")
    | .refused reason => throw (.refusedLookup ref.name reason)
  call name args := ExceptT.mk (pure (env.functions.call name args).result)
  search regex subject := do
    let found := env.engine.find? regex.pattern regex.ignoreCase subject
    modify fun searches ↦ searches ++ [⟨regex, subject, found⟩]
    pure found.isSome
  backref n := do
    let searches ← get
    pure (recollect start searches n)
  warn _ := pure ()

/-- An evaluation with a memory and a walk with a slot agree: the slot of the walk has the groups of
the last search in the memory, and its account of itself is faithful. -/
def Recalls (engine : Regex.Engine) (start : Captures) (α : Type) (x : Recall α) (w : Walk α) :
    Prop :=
  ∀ h : List Search,
    let o := w (start.after h)
    x h = (o.result, h ++ Event.searches o.events) ∧
      o.captures = start.after (h ++ Event.searches o.events) ∧
      Event.Faithful engine (start.after h) o.events

variable {env : Environment} {engine : Regex.Engine} {start : Captures}

/-- **An evaluation with a memory and a walk with a slot go on to agree.** -/
theorem Recalls.bind {α β : Type} {x : Recall α} {w : Walk α} {f : α → Recall β} {g : α → Walk β}
    (hx : Recalls engine start α x w) (hf : ∀ a, Recalls engine start β (f a) (g a)) :
    Recalls engine start β (x >>= f) (w >>= g) := by
  intro h
  obtain ⟨hr, hc, hes⟩ := hx h
  rcases hw : w (start.after h) with ⟨e | a, c, es⟩
  · rw [hw] at hr hc hes
    rw [Walk.bind_error g hw]
    exact ⟨Recall.bind_error f hr, hc, hes⟩
  · rw [hw] at hr hc hes
    rw [Walk.bind_ok g hw]
    simp only at hr hc hes ⊢
    subst hc
    obtain ⟨hr', hc', hes'⟩ := hf a (h ++ Event.searches es)
    rw [Event.searches_append, ← List.append_assoc]
    refine ⟨(Recall.bind_ok f hr).trans hr', hc', hes.append ?_⟩
    rwa [← Captures.after_append]

/-- A step that makes no search and reads no group. -/
theorem Recalls.of_forall {α : Type} {x : Recall α} {w : Walk α} {r : Except EvalError α}
    {es : List Event} (hx : ∀ h, x h = (r, h)) (hw : ∀ c, w c = ⟨r, c, es⟩)
    (hs : ∀ ev ∈ es, ∀ regex subject found, ev ≠ .search regex subject found)
    (hb : ∀ ev ∈ es, ∀ n text, ev ≠ .backref n text) : Recalls engine start α x w := by
  intro h
  simp only [hw, hx, Event.searches_eq_nil_iff.2 hs, List.append_nil, true_and]
  exact .of_forall hs hb

/-- A search is added to the memory, and fills the slot. -/
theorem Recalls.search (regex : RegexLiteral) (subject : String) :
    Recalls env.engine start Bool ((env.recalling start).search regex subject)
      (env.search regex subject) := by
  intro h
  have hslot := Captures.after_snoc start h
    ⟨regex, subject, env.engine.find? regex.pattern regex.ignoreCase subject⟩
  refine ⟨rfl, hslot.symm, ⟨?_, ?_⟩⟩
  · intro regex' subject' found hmem
    cases List.mem_singleton.1 hmem
    rfl
  · intro before after n text heq
    cases before with
    | nil => cases (List.cons.inj heq).1
    | cons _ before => cases before <;> cases (List.cons.inj heq).2

/-- A reference reads the same in the memory and in the slot. -/
theorem Recalls.backref (n : Nat) :
    Recalls engine start String ((env.recalling start).backref n) (Walk.backref n) := by
  intro h
  have hnone : h ++ Event.searches [.backref n ((start.after h).text n)] = h :=
    List.append_nil h
  refine ⟨?_, congrArg start.after hnone.symm, ⟨?_, ?_⟩⟩
  · change (Except.ok (recollect start h n), h) = _
    rw [recollect_eq]
    exact congrArg (Prod.mk _) hnone.symm
  · intro regex subject found hmem
    cases List.mem_singleton.1 hmem
  · intro before after k text heq
    cases before with
    | nil =>
      cases (List.cons.inj heq).1
      exact Captures.readsBehind_iff.2 rfl
    | cons _ before => cases before <;> cases (List.cons.inj heq).2

/-- The memory serves for the slot, action by action. -/
theorem recalling_simulates (env : Environment) (start : Captures) :
    Actions.Simulates (env.recalling start) env.actions (Recalls env.engine start) where
  pure x := .of_forall (fun _ ↦ rfl) (fun _ ↦ rfl) (by simp) (by simp)
  bind h h' := h.bind h'
  resolve ref := by
    refine .of_forall (fun h ↦ ?_) (env.resolve_apply ref) (by simp) (by simp)
    simp only [recalling]
    cases env.context ref <;> rfl
  call name args := .of_forall (fun _ ↦ rfl) (fun _ ↦ rfl) (by simp) (by simp)
  search := .search
  backref := .backref
  warn records := .of_forall (fun _ ↦ rfl) (fun _ ↦ rfl) (by simp) (by simp)

/-- **References read the last search before them.**  A walk over a tree has the result of the
evaluation that remembers every search and has no slot, and makes the same searches.  Each of them
finds what the engine finds.  The slot that the walk leaves, whether it reaches a value or an error,
has the groups of the last search that it made, and each reference on the way read a group of the
last search before it; where there was none, that is the slot at the start. -/
theorem eval_recalls (env : Environment) (e : Expr) (start : Captures) :
    let o := env.eval e start
    let searches := Event.searches o.events
    ((env.recalling start).eval e) [] = (o.result, searches) ∧
      start.HoldsBehind searches o.captures ∧ Event.Faithful env.engine start o.events := by
  intro o searches
  obtain ⟨hresult, hslot, hfaithful⟩ := (recalling_simulates env start).eval e []
  rw [← eval_eq] at hresult hslot hfaithful
  exact ⟨hresult, hslot ▸ start.holdsBehind_after searches, hfaithful⟩

/-- The text is `ab`, and `c` is not in it.  So the first group has taken `b`, the second took no
part, and there is no third; in front of the match the slot at the start is read. -/
theorem eval_recalls_groups :
    let env : Environment := { context := fun _ ↦ .unresolved, functions := .empty }
    let regex : RegexLiteral := ⟨"a(b)(c)?", false⟩
    let found : Option Regex.Groups := some [some "ab", some "b", none]
    let e : Expr := .concat [.backref 1, .isMatch false (.string [.text "ab"]) regex,
      .string [.backref 1, .text "-", .backref 2, .text "-", .backref 3]]
    let o := env.eval e ⟨["x", "y"]⟩
    o.result = .ok (.string "ytrueb--") ∧ o.captures.groups = ["ab", "b", ""] ∧
      o.events = [.backref 1 "y", .search regex "ab" found, .backref 1 "b", .backref 2 "",
        .backref 3 ""] ∧
      ((env.recalling ⟨["x", "y"]⟩).eval e) [] = (o.result, [⟨regex, "ab", found⟩]) ∧
      Regex.Reads found 1 "b" ∧ Regex.Reads found 2 "" ∧ Regex.Reads found 3 "" := by
  intro env regex found e o
  -- The search is the only step that takes long to compute.
  have hfind : env.engine.find? regex.pattern regex.ignoreCase "ab" = found := by decide +kernel
  have hmatch : env.eval (.isMatch false (.string [.text "ab"]) regex) =
      (do let b ← Walk.leave regex "ab" found; pure (.boolean (b != false))) := by
    rw [← hfind]
    rfl
  have ho : o = ⟨.ok (.string "ytrueb--"), ⟨["ab", "b", ""]⟩, [.backref 1 "y",
      .search regex "ab" found, .backref 1 "b", .backref 2 "", .backref 3 ""]⟩ := by
    change (env.eval e) ⟨["x", "y"]⟩ = _
    simp only [e, eval, evalAll] at hmatch ⊢
    rw [hmatch]
    rfl
  obtain ⟨hresult, -, hfaithful⟩ := eval_recalls env e ⟨["x", "y"]⟩
  have hread := hfaithful.backref
  change (env.recalling ⟨["x", "y"]⟩).eval e [] = (o.result, Event.searches o.events) at hresult
  change ∀ before after n text, o.events = _ → _ at hread
  rw [ho] at hresult hread ⊢
  exact ⟨rfl, rfl, rfl, hresult,
    hread [.backref 1 "y", .search regex "ab" found] _ 1 "b" rfl,
    hread [.backref 1 "y", .search regex "ab" found, .backref 1 "b"] _ 2 "" rfl,
    hread [.backref 1 "y", .search regex "ab" found, .backref 1 "b", .backref 2 ""] _ 3 "" rfl⟩

end Environment

end RequestCondition

import Mathlib.Data.List.Induction
import RequestCondition.Proofs.Parser.Soundness

/-!
# What is left open

A parser counts the negations, groups and argument lists that are open, and it can be used again
after an error.  Then what was open where the error was found is still counted, and there is that
much less room.

To say what was open, `Parser.Takes f p ts` gives an account of a run: the turns `ts` that the run
of `f` from `p` takes are the constructs that it opens, closes, and may not open, in order.  A turn
stands for what the code does about its counter, so it comes with the state of the counter that
allows it.  `Parser.Settles` is about turns alone: it goes through them with the constructs that are
open on a stack.

All of the grammar is made of steps that leave the counter alone, one after another, and of `nested`
around the inside of one of three constructs.  `Parser.Routine` says so, once for each function of
the grammar, and two inductions do the rest.  Every run of a routine has an account, since the
levels that are left for it are those that the counter leaves (`Routine.takes`), and by any account
what the counter has gained is what the turns leave open (`Takes.balance`).  `nesting_of_calls` puts
that together for a parser that is used any number of times.

There are two numbers here that could be taken for one.  The counter is part of the state and goes
up and down; the level is part of the grammar and goes down by one inside every construct.  The code
looks at the level when it decides whether a construct may be opened, and the level was computed
from the counter when the call began.  That the two go together all the way is what `Routine.takes`
proves, and an account has the counter in it so that this is not taken for granted.

* **Accounts** are about one run.  Their rules are the ways in which a run can go, and the run
  itself is in the premises, so a run that fails has an account up to there.
* **The stack** is not in the code.  A counter could go up for one construct and down for another;
  to say that it does not, the constructs have to be named, and the one that is closed is the
  innermost.
* **Calls** go on from where the one before has left the state, whether it went well or not.  What
  earlier calls have left open is at the bottom of the stack and is never touched.
-/

set_option autoImplicit false

namespace RequestCondition

/-- The constructs that count towards the nesting limit. -/
inductive Construct where
  | negation
  | group
  /-- The arguments of a call. -/
  | arguments (name : String)
deriving DecidableEq

/-- What happens to a construct where a parser comes to it or leaves it, and what the counter says
when that happens. -/
inductive Turn where
  | opened (c : Construct) (counter : Nat)
  | closed (c : Construct) (counter : Nat)
  /-- The construct may not be opened. -/
  | refused (c : Construct) (counter : Nat)
deriving DecidableEq

/-- The counter is at most at the limit, below it where it goes up, and above zero where it goes
down. -/
def Turn.InBounds : Turn → Prop
  | opened _ n => n < maxNestingDepth
  | closed _ n => 0 < n ∧ n ≤ maxNestingDepth
  | refused _ n => n = maxNestingDepth

namespace Parser

variable {α β : Type}

/-! ## Accounts of runs

The inside of a construct is told by the construct, so `nested` around it is known to be about that
one. -/

/-- What is read of a construct once it is open, with the grammar that is left for it. -/
def inside : Construct → Grammar → ParserM Expr
  | .negation, g => do
    advance
    let e ← g.negation
    pure (.not e)
  | .group, g => do
    advance
    let e ← g.expression
    expect .rparen
    pure e
  | .arguments name, g => do
    advance
    let args ← items .rparen g.concat
    pure (.call name args)

/-- The steps that leave the counter alone and know nothing of the limit. -/
inductive IsStep : {α : Type} → ParserM α → Prop
  | pure {α : Type} (a : α) : IsStep (pure a)
  | get : IsStep (get : ParserM Parser)
  | peek : IsStep peek
  | check (test : Token → Bool) : IsStep (check test)
  | advance : IsStep advance
  | clear : IsStep clear
  | unexpected {α : Type} (expected : Expectation) : IsStep (unexpected expected : ParserM α)
  | failWith {α : Type} {cause : ParseCause} (h : cause ≠ .nestedTooDeeply) :
      IsStep (failWith cause : ParserM α)

/-- The run of `f` from `p` takes the turns `ts`.  It is the counter that decides whether a
construct is opened; that there is a grammar for the inside just where the counter allows it is a
result (`Routine.takes`). -/
inductive Takes : {α : Type} → ParserM α → Parser → List Turn → Prop
  | step {α : Type} {f : ParserM α} (h : IsStep f) (p : Parser) : Takes f p []
  | stop {α β : Type} {x : ParserM α} {p q : Parser} {e : ParseError} {ts : List Turn}
      (f : α → ParserM β) (h : Takes x p ts) (herr : x p = .error e q) : Takes (x >>= f) p ts
  | goOn {α β : Type} {x : ParserM α} {f : α → ParserM β} {p q : Parser} {a : α} {ts us : List Turn}
      (h : Takes x p ts) (hok : x p = .ok a q) (hf : Takes (f a) q us) :
      Takes (x >>= f) p (ts ++ us)
  | refused {p : Parser} (c : Construct) (hfull : p.depth = maxNestingDepth) :
      Takes (nested none (inside c)) p [.refused c p.depth]
  | abandoned {p q : Parser} {e : ParseError} {ts : List Turn} {c : Construct} {g : Grammar}
      (hroom : p.depth < maxNestingDepth)
      (h : Takes (inside c g) (p.withDepth (p.depth + 1)) ts)
      (herr : inside c g (p.withDepth (p.depth + 1)) = .error e q) :
      Takes (nested (some g) (inside c)) p (.opened c p.depth :: ts)
  | completed {p q : Parser} {a : Expr} {ts : List Turn} {c : Construct} {g : Grammar}
      (hroom : p.depth < maxNestingDepth)
      (h : Takes (inside c g) (p.withDepth (p.depth + 1)) ts)
      (hok : inside c g (p.withDepth (p.depth + 1)) = .ok a q) :
      Takes (nested (some g) (inside c)) p (.opened c p.depth :: ts ++ [.closed c q.depth])

/-! ## Turns on a stack

Nothing of the parser comes up here.  Turns are symbols, and a run through them is a run of a
counter and a stack side by side. -/

/-- With `behind` constructs left open by others, and with `own` open on top of them, the innermost
first, the turns can be taken, and they leave `own'` open.  The counter is always at the number of
constructs that are open.  One is opened where there is room and refused where there is none, and
the one that is closed is the innermost. -/
inductive Settles (behind : Nat) : List Construct → List Turn → List Construct → Prop
  | done (own : List Construct) : Settles behind own [] own
  | opened {c : Construct} {n : Nat} {own own' : List Construct} {ts : List Turn}
      (hn : n = behind + own.length) (hroom : n < maxNestingDepth)
      (h : Settles behind (c :: own) ts own') : Settles behind own (.opened c n :: ts) own'
  | closed {c : Construct} {n : Nat} {own own' : List Construct} {ts : List Turn}
      (hn : n = behind + (own.length + 1)) (h : Settles behind own ts own') :
      Settles behind (c :: own) (.closed c n :: ts) own'
  | refused {c : Construct} {n : Nat} {own own' : List Construct} {ts : List Turn}
      (hn : n = behind + own.length) (hfull : n = maxNestingDepth)
      (h : Settles behind own ts own') : Settles behind own (.refused c n :: ts) own'

namespace Settles

variable {behind : Nat} {own own' own'' : List Construct} {ts us : List Turn}

/-- Turns that go on from where others have left the stack. -/
theorem trans (h : Settles behind own ts own') (h' : Settles behind own' us own'') :
    Settles behind own (ts ++ us) own'' := by
  induction h with
  | done own => exact h'
  | opened hn hroom _ ih => exact .opened hn hroom (ih h')
  | closed hn _ ih => exact .closed hn (ih h')
  | refused hn hfull _ ih => exact .refused hn hfull (ih h')

/-- A construct that was left open by others may as well be the bottom of the stack. -/
theorem above (c : Construct) (h : Settles (behind + 1) own ts own') :
    Settles behind (own ++ [c]) ts (own' ++ [c]) := by
  have hlength (own : List Construct) : (own ++ [c]).length = own.length + 1 := by
    rw [List.length_append, List.length_singleton]
  induction h with
  | done own => exact .done _
  | @opened _ _ own _ _ hn hroom _ ih => exact .opened (by rw [hn, hlength]; omega) hroom ih
  | @closed d n own own' ts hn _ ih =>
    have hclosed : Settles behind (d :: (own ++ [c])) (.closed d n :: ts) (own' ++ [c]) :=
      .closed (by rw [hn, hlength]; omega) ih
    exact hclosed
  | @refused _ _ own _ _ hn hfull _ ih => exact .refused (by rw [hn, hlength]; omega) hfull ih

/-- There are never more open than may be, and the counter is where it should be. -/
theorem inBounds (h : Settles behind own ts own') (hle : behind + own.length ≤ maxNestingDepth) :
    behind + own'.length ≤ maxNestingDepth ∧ ∀ t ∈ ts, t.InBounds := by
  induction h with
  | done own => exact ⟨hle, nofun⟩
  | opened hn hroom _ ih =>
    subst hn
    obtain ⟨hle', hts⟩ := ih hroom
    exact ⟨hle', List.forall_mem_cons.2 ⟨hroom, hts⟩⟩
  | closed hn _ ih =>
    rw [List.length_cons, ← hn] at hle
    obtain ⟨hle', hts⟩ := ih (by omega)
    exact ⟨hle', List.forall_mem_cons.2 ⟨⟨by omega, hle⟩, hts⟩⟩
  | refused hn hfull _ ih =>
    obtain ⟨hle', hts⟩ := ih hle
    exact ⟨hle', List.forall_mem_cons.2 ⟨hfull, hts⟩⟩

/-- What turns leave open is settled by the turns. -/
theorem unique (h : Settles behind own ts own') (h' : Settles behind own ts own'') :
    own' = own'' := by
  induction h with
  | done own =>
    cases h'
    rfl
  | opened _ _ _ ih =>
    cases h' with
    | opened _ _ h' => exact ih h'
  | closed _ _ ih =>
    cases h' with
    | closed _ h' => exact ih h'
  | refused _ _ _ ih =>
    cases h' with
    | refused _ _ h' => exact ih h'

end Settles

/-! ## The balance of an account

The induction is on the account.  What a part of the run leaves open is added up, and where a
construct is left by an error, it is the bottom of what was left open inside of it. -/

/-- What a run from `p` by the turns `ts` that leaves `own` open comes to: success leaves nothing
open, and an error says that the limit is reached where a construct was refused. -/
inductive Balance (p : Parser) (ts : List Turn) (own : List Construct) :
    EStateM.Result ParseError Parser α → Prop
  | ok {a : α} {q : Parser} (hown : own = []) (hdepth : q.depth = p.depth)
      (hlimit : ∀ c n, .refused c n ∉ ts) : Balance p ts own (.ok a q)
  | error {e : ParseError} {q : Parser} (hdepth : q.depth = p.depth + own.length)
      (hlimit : e.cause = .nestedTooDeeply ↔ ∃ c n, .refused c n ∈ ts) :
      Balance p ts own (.error e q)

/-- Moving on leaves the counter alone, and its errors are not about the limit. -/
theorem advance_balance (p : Parser) : Balance p [] [] (advance p) := by
  rw [advance]
  rcases p.lexemes.next with ⟨⟨e | t, start⟩, s⟩
  · exact .error rfl (iff_of_false (by simp [ParseError.ofLexError]) (by simp))
  · exact .ok rfl rfl fun _ _ ↦ List.not_mem_nil

/-- A step opens nothing and closes nothing. -/
theorem IsStep.balance {f : ParserM α} (h : IsStep f) (p : Parser) : Balance p [] [] (f p) := by
  cases h with
  | pure a => exact .ok rfl rfl nofun
  | get => exact .ok rfl rfl nofun
  | peek => exact .ok rfl rfl nofun
  | check test => exact .ok rfl rfl nofun
  | advance => exact advance_balance p
  | clear => exact .ok rfl rfl nofun
  | unexpected expected => exact .error rfl ⟨nofun, nofun⟩
  | failWith h => exact .error rfl ⟨fun h' ↦ absurd h' h, nofun⟩

/-- What two runs, one behind the other, leave open. -/
theorem Balance.trans {p q : Parser} {ts us : List Turn} {own own' : List Construct} {a : α}
    {r : EStateM.Result ParseError Parser β} (h : Balance p ts own (.ok a q))
    (h' : Balance q us own' r) : Balance p (ts ++ us) own' r := by
  obtain ⟨-, hdepth, hnone⟩ := h
  have hmem (c : Construct) (n : Nat) : .refused c n ∈ ts ++ us ↔ .refused c n ∈ us := by
    rw [List.mem_append, or_iff_right (hnone c n)]
  cases h' with
  | ok hown' hdepth' hnone' =>
    exact .ok hown' (hdepth'.trans hdepth) fun c n hc ↦ hnone' c n ((hmem c n).1 hc)
  | error hdepth' hlimit =>
    refine .error (by rw [hdepth', hdepth]) ?_
    simp only [hmem]
    exact hlimit

/-- A construct that may not be opened is an error about the limit. -/
theorem Balance.refused (p : Parser) (c : Construct) :
    Balance p [.refused c p.depth] [] (nested none (inside c) p) :=
  .error rfl ⟨fun _ ↦ ⟨c, p.depth, List.mem_singleton_self _⟩, fun _ ↦ rfl⟩

/-- An error inside a construct leaves the construct open. -/
theorem Balance.abandoned {p q : Parser} {ts : List Turn} {own : List Construct} {e : ParseError}
    (c : Construct)
    (h : Balance (p.withDepth (p.depth + 1)) ts own
      (.error e q : EStateM.Result ParseError Parser α)) :
    Balance p (.opened c p.depth :: ts) (own ++ [c])
      (.error e q : EStateM.Result ParseError Parser α) := by
  obtain _ | ⟨hdepth, hlimit⟩ := h
  refine .error ?_ ?_
  · rw [hdepth, withDepth_depth, List.length_append, List.length_singleton]
    omega
  · simpa using hlimit

/-- A construct that is read to its end is closed, with nothing left open inside. -/
theorem Balance.completed {p q : Parser} {ts : List Turn} {own : List Construct} {a : α}
    (c : Construct)
    (h : Balance (p.withDepth (p.depth + 1)) ts own (.ok a q)) :
    Balance p (.opened c p.depth :: ts ++ [.closed c q.depth]) []
      (.ok a (q.withDepth (q.depth - 1))) := by
  obtain ⟨-, hdepth, hnone⟩ := h
  refine .ok rfl ?_ ?_
  · rw [withDepth_depth, hdepth, withDepth_depth, Nat.add_sub_cancel]
  · simpa using hnone

/-- The state that a run leaves, whether it succeeds or fails. -/
def stateAfter : EStateM.Result ParseError Parser α → Parser
  | .ok _ q | .error _ q => q

theorem Balance.depth_stateAfter {p : Parser} {ts : List Turn} {own : List Construct}
    {r : EStateM.Result ParseError Parser α} (h : Balance p ts own r) :
    (stateAfter r).depth = p.depth + own.length := by
  cases h with
  | ok hown hdepth _ =>
    rw [hown]
    exact hdepth
  | error hdepth _ => exact hdepth

/-- **What the counter has gained is what is left open.**  The constructs that were open before
count as left behind by others, and the turns of a run neither close them nor know what they are. -/
theorem Takes.balance {f : ParserM α} {p : Parser} {ts : List Turn} (h : Takes f p ts) :
    ∃ own, Settles p.depth [] ts own ∧ Balance p ts own (f p) := by
  induction h with
  | step h p => exact ⟨[], .done [], h.balance p⟩
  | stop f h herr ih =>
    obtain ⟨own, hs, hb⟩ := ih
    rw [herr] at hb
    rw [bind_of_error herr]
    obtain _ | ⟨hdepth, hlimit⟩ := hb
    exact ⟨own, hs, .error hdepth hlimit⟩
  | goOn h hok hf ihx ihf =>
    obtain ⟨own, hs, hb⟩ := ihx
    obtain ⟨own', hs', hb'⟩ := ihf
    rw [hok] at hb
    rw [bind_of_ok hok]
    refine ⟨own', ?_, hb.trans hb'⟩
    obtain ⟨rfl, hdepth, -⟩ := hb
    rw [hdepth] at hs'
    exact hs.trans hs'
  | refused c hfull => exact ⟨[], .refused rfl hfull (.done []), .refused _ c⟩
  | @abandoned p q e ts c g hroom h herr ih =>
    obtain ⟨own, hs, hb⟩ := ih
    rw [herr] at hb
    rw [nested_some_eq_error_iff.2 herr]
    exact ⟨own ++ [c], .opened rfl hroom (hs.above c), hb.abandoned c⟩
  | @completed p q a ts c g hroom h hok ih =>
    obtain ⟨own, hs, hb⟩ := ih
    rw [hok] at hb
    rw [nested_eq_ok_iff.2 ⟨g, q, rfl, hok, rfl⟩]
    refine ⟨[], ?_, hb.completed c⟩
    obtain ⟨rfl, hdepth, -⟩ := hb
    exact .opened rfl hroom ((hs.above c).trans (.closed hdepth (.done [])))

/-! ## Routines

A routine knows how many levels are left for it.  From here on only the definitions of the grammar
are followed, and each of its functions needs a few lines. -/

/-- `f` is made of steps, of other routines one after another, and of the insides of constructs,
where the grammar has one level less for every construct around them; `room` levels are left for
`f`. -/
inductive Routine : {α : Type} → Nat → ParserM α → Prop
  | step {α : Type} {f : ParserM α} (room : Nat) (h : IsStep f) : Routine room f
  | bind {α β : Type} {room : Nat} {x : ParserM α} {f : α → ParserM β} (hx : Routine room x)
      (hf : ∀ a, Routine room (f a)) : Routine room (x >>= f)
  | refused (c : Construct) : Routine 0 (nested none (inside c))
  | nested {room : Nat} {c : Construct} (h : Routine room (inside c (level room))) :
      Routine (room + 1) (nested (some (level room)) (inside c))

/-- What goes on where a run with an account succeeds, with its counter as it was, has an account
too. -/
theorem Takes.bind {x : ParserM α} {f : α → ParserM β} {p : Parser} {ts : List Turn}
    (h : Takes x p ts) (hf : ∀ a q, q.depth = p.depth → ∃ us, Takes (f a) q us) :
    ∃ us, Takes (x >>= f) p us := by
  obtain ⟨own, -, hb⟩ := h.balance
  cases hr : x p with
  | error e q => exact ⟨ts, .stop f h hr⟩
  | ok a q =>
    rw [hr] at hb
    obtain ⟨-, hdepth, -⟩ := hb
    obtain ⟨us, hus⟩ := hf a q hdepth
    exact ⟨ts ++ us, .goOn h hr hus⟩

/-- **Every run has an account**, where the counter leaves as much room as there are levels.  A
routine that has no level left is at the limit, so it is right that it is refused. -/
theorem Routine.takes {room : Nat} {f : ParserM α} (h : Routine room f) {p : Parser}
    (hp : p.depth + room = maxNestingDepth) : ∃ ts, Takes f p ts := by
  induction h generalizing p with
  | step room h => exact ⟨[], .step h p⟩
  | bind hx hf ihx ihf =>
    obtain ⟨ts, hts⟩ := ihx hp
    exact hts.bind fun a q hdepth ↦ ihf a (hdepth ▸ hp)
  | refused c => exact ⟨[.refused c p.depth], .refused c hp⟩
  | @nested room c h ih =>
    have hin : (p.withDepth (p.depth + 1)).depth + room = maxNestingDepth := by
      rw [withDepth_depth]
      omega
    obtain ⟨ts, hts⟩ := ih hin
    cases hr : inside c (level room) (p.withDepth (p.depth + 1)) with
    | error e q => exact ⟨_, .abandoned (by omega) hts hr⟩
    | ok a q => exact ⟨_, .completed (by omega) hts hr⟩

variable {room : Nat}

/-! ### Steps -/

theorem pure_routine (a : α) : Routine room (pure a) := .step room (.pure a)

theorem get_routine : Routine room (get : ParserM Parser) := .step room .get

theorem peek_routine : Routine room peek := .step room .peek

theorem check_routine (test : Token → Bool) : Routine room (check test) := .step room (.check test)

theorem advance_routine : Routine room advance := .step room .advance

theorem unexpected_routine (expected : Expectation) :
    Routine room (unexpected expected : ParserM α) := .step room (.unexpected expected)

theorem failWith_routine {cause : ParseCause} (h : cause ≠ .nestedTooDeeply) :
    Routine room (failWith cause : ParserM α) := .step room (.failWith h)

theorem clear_routine : Routine room clear := .step room .clear

theorem discard_routine : Routine room discard := clear_routine.bind fun _ ↦ advance_routine

theorem expect_routine (t : Token) : Routine room (expect t) :=
  (check_routine _).bind fun b ↦ by
    cases b with
    | false => exact unexpected_routine _
    | true => exact advance_routine

theorem Routine.map {x : ParserM α} (hx : Routine room x) (f : α → β) : Routine room (x.map f) := by
  have h : x.map f = x >>= fun a ↦ pure (f a) := by
    funext p
    change EStateM.map f x p = EStateM.bind x _ p
    rw [EStateM.map, EStateM.bind]
    cases x p <;> rfl
  rw [h]
  exact hx.bind fun a ↦ pure_routine (f a)

/-! ### Repetition -/

/-- Operands that are joined from the left. -/
theorem moreOperands_routine {isOp : Token → Bool} {join : α → α → α} {item : ParserM α}
    (h : Routine room item) (n : Nat) (left : α) :
    Routine room (moreOperands isOp join item n left) := by
  induction n generalizing left with
  | zero => exact pure_routine left
  | succ n ih =>
    refine (check_routine isOp).bind fun b ↦ ?_
    cases b with
    | false => exact pure_routine left
    | true => exact advance_routine.bind fun _ ↦ h.bind fun right ↦ ih (join left right)

theorem chain_routine {isOp : Token → Bool} {join : α → α → α} {item : ParserM α}
    (h : Routine room item) : Routine room (chain isOp join item) := by
  refine h.bind fun left ↦ (check_routine isOp).bind fun b ↦ ?_
  cases b with
  | false => exact pure_routine left
  | true => exact get_routine.bind fun p ↦ moreOperands_routine h p.fuel left

theorem moreItems_routine {close : Token} {item : ParserM α} (h : Routine room item) (n : Nat) :
    Routine room (moreItems close item n) := by
  induction n with
  | zero => exact pure_routine []
  | succ n ih =>
    refine (check_routine _).bind fun b ↦ ?_
    cases b with
    | true => exact pure_routine []
    | false =>
      refine h.bind fun first ↦ (check_routine _).bind fun b ↦ ?_
      cases b with
      | true => exact pure_routine [first]
      | false => exact (expect_routine .comma).bind fun _ ↦ ih.bind fun others ↦ pure_routine _

theorem items_routine {close : Token} {item : ParserM α} (h : Routine room item) :
    Routine room (items close item) :=
  get_routine.bind fun p ↦ (moreItems_routine h p.fuel).bind fun xs ↦
    (expect_routine close).bind fun _ ↦ pure_routine xs

/-! ### References, strings and regex literals -/

theorem variableBody_routine : Routine room variableBody := by
  refine peek_routine.bind fun t ↦ ?_
  split
  · refine discard_routine.bind fun _ ↦ peek_routine.bind fun t ↦ ?_
    split
    · exact advance_routine.bind fun _ ↦ (expect_routine .varEnd).bind fun _ ↦ pure_routine _
    · exact (expect_routine .varEnd).bind fun _ ↦ pure_routine _
  · exact unexpected_routine _

theorem moreParts_routine (close : Token) (expected : Expectation) (n : Nat) :
    Routine room (moreParts close expected n) := by
  induction n with
  | zero => exact pure_routine []
  | succ n ih =>
    refine peek_routine.bind fun t ↦ ?_
    split
    · exact discard_routine.bind fun _ ↦ ih.bind fun others ↦ pure_routine _
    · exact discard_routine.bind fun _ ↦ ih.bind fun others ↦ pure_routine _
    · exact discard_routine.bind fun _ ↦ variableBody_routine.bind fun ref ↦ ih.bind fun others ↦
        pure_routine _
    · split
      · exact pure_routine []
      · exact unexpected_routine _

theorem stringBody_routine : Routine room stringBody :=
  get_routine.bind fun p ↦ (moreParts_routine .strEnd .stringPart p.fuel).bind fun _ ↦
    discard_routine.bind fun _ ↦ pure_routine _

theorem regexLiteral_routine : Routine room regexLiteral := by
  refine get_routine.bind fun p ↦ ?_
  split
  · simp only
    split
    · exact advance_routine.bind fun _ ↦ pure_routine _
    · exact failWith_routine nofun
  · exact unexpected_routine _

/-! ### One level -/

/-- A grammar that has room for `room` constructs inside each other. -/
structure GrammarRoutine (g : Grammar) (room : Nat) : Prop where
  expression : Routine room g.expression
  negation : Routine room g.negation
  concat : Routine room g.concat

/-- The inside of each construct. -/
theorem inside_routine {g : Grammar} (h : GrammarRoutine g room) (c : Construct) :
    Routine room (inside c g) := by
  cases c with
  | negation => exact advance_routine.bind fun _ ↦ h.negation.bind fun _ ↦ pure_routine _
  | group =>
    exact advance_routine.bind fun _ ↦ h.expression.bind fun e ↦
      (expect_routine .rparen).bind fun _ ↦ pure_routine e
  | arguments name =>
    exact advance_routine.bind fun _ ↦ (items_routine h.concat).bind fun _ ↦ pure_routine _

/-- **A construct is opened where a level is left for it**, and is refused where there is none. -/
theorem nested_routine (hb : ∀ m, room = m + 1 → GrammarRoutine (level m) m) (c : Construct) :
    Routine room (nested (below room) (inside c)) := by
  cases room with
  | zero => exact .refused c
  | succ m => exact .nested (inside_routine (hb m rfl) c)

/-- Calls and groups open a construct, and no other operand does. -/
theorem operand_routine (hb : ∀ m, room = m + 1 → GrammarRoutine (level m) m) :
    Routine room (operand (below room)) := by
  refine peek_routine.bind fun t ↦ ?_
  split
  · exact discard_routine.bind fun _ ↦ pure_routine _
  · exact discard_routine.bind fun _ ↦ pure_routine _
  · exact discard_routine.bind fun _ ↦ stringBody_routine
  · exact discard_routine.bind fun _ ↦ variableBody_routine.bind fun ref ↦ pure_routine _
  · exact discard_routine.bind fun _ ↦ pure_routine _
  · rename_i name
    refine discard_routine.bind fun _ ↦ (check_routine _).bind fun b ↦ ?_
    cases b with
    | false => exact pure_routine _
    | true => exact nested_routine hb (.arguments name)
  · exact clear_routine.bind fun _ ↦ nested_routine hb .group
  · exact unexpected_routine _
  · exact failWith_routine nofun
  · exact unexpected_routine _

theorem concatenation_routine (hb : ∀ m, room = m + 1 → GrammarRoutine (level m) m) :
    Routine room (concatenation (below room)) := by
  rw [concatenation_eq]
  exact (chain_routine ((operand_routine hb).map _)).map _

theorem relation_routine (hb : ∀ m, room = m + 1 → GrammarRoutine (level m) m) (left : Expr) :
    Routine room (relation (below room) left) := by
  have hconcat := concatenation_routine hb
  refine peek_routine.bind fun t ↦ ?_
  split
  · exact advance_routine.bind fun _ ↦ hconcat.bind fun right ↦ pure_routine _
  · exact advance_routine.bind fun _ ↦ regexLiteral_routine.bind fun regex ↦ pure_routine _
  · exact advance_routine.bind fun _ ↦ regexLiteral_routine.bind fun regex ↦ pure_routine _
  · exact advance_routine.bind fun _ ↦ (expect_routine .lbrace).bind fun _ ↦
      (items_routine hconcat).bind fun list ↦ pure_routine _
  · exact advance_routine.bind fun _ ↦ hconcat.bind fun right ↦ pure_routine _
  · exact pure_routine left

theorem clientTest_routine (hb : ∀ m, room = m + 1 → GrammarRoutine (level m) m) :
    Routine room (clientTest (below room)) := by
  refine peek_routine.bind fun t ↦ ?_
  split
  · exact regexLiteral_routine.bind fun regex ↦ pure_routine _
  · exact (concatenation_routine hb).bind fun network ↦ pure_routine _

theorem bareComparison_routine (hb : ∀ m, room = m + 1 → GrammarRoutine (level m) m) :
    Routine room (bareComparison (below room)) := by
  refine peek_routine.bind fun t ↦ ?_
  split
  · refine advance_routine.bind fun _ ↦ ?_
    split
    · exact clientTest_routine hb
    · exact (concatenation_routine hb).bind fun e ↦ pure_routine _
  · exact (concatenation_routine hb).bind fun left ↦ relation_routine hb left

theorem comparison_routine (hb : ∀ m, room = m + 1 → GrammarRoutine (level m) m) :
    Routine room (comparison (below room)) := by
  rw [comparison_eq]
  refine (bareComparison_routine hb).bind fun e ↦ (check_routine _).bind fun b ↦ ?_
  cases b with
  | false => exact pure_routine e
  | true => exact unexpected_routine _

/-- Every `!` opens a construct. -/
theorem negation_routine (hb : ∀ m, room = m + 1 → GrammarRoutine (level m) m) :
    Routine room (negation (below room)) := by
  refine (check_routine _).bind fun b ↦ ?_
  cases b with
  | false => exact comparison_routine hb
  | true => exact nested_routine hb .negation

theorem around_routine (hb : ∀ m, room = m + 1 → GrammarRoutine (level m) m) :
    GrammarRoutine (around (below room)) room where
  expression := chain_routine (chain_routine (negation_routine hb))
  negation := negation_routine hb
  concat := concatenation_routine hb

/-- The grammar with `room` levels below it has room for as many constructs inside each other. -/
theorem level_routine (room : Nat) : GrammarRoutine (level room) room := by
  induction room with
  | zero =>
    have hb : ∀ m, 0 = m + 1 → GrammarRoutine (level m) m := nofun
    rw [level_eq]
    exact around_routine hb
  | succ room ih =>
    have hb : ∀ m, room + 1 = m + 1 → GrammarRoutine (level m) m := fun m hm ↦ Nat.succ.inj hm ▸ ih
    rw [level_eq]
    exact around_routine hb

theorem template_routine : Routine room template :=
  get_routine.bind fun p ↦ (moreParts_routine .eof .templatePart p.fuel).bind fun _ ↦
    pure_routine _

/-! ## Calls -/

/-- What a parser can be asked for. -/
inductive Call where
  | expression
  | whole
  | template
deriving DecidableEq

/-- The run of a call. -/
def Call.run : Call → ParserM Expr
  | .expression => Parser.expression
  | .whole => Parser.whole
  | .template => Parser.template

/-- The state after a number of calls, which go on after errors. -/
def afterCalls (p : Parser) (calls : List Call) : Parser :=
  calls.foldl (fun q call ↦ stateAfter (call.run q)) p

theorem afterCalls_append (p : Parser) (calls : List Call) (call : Call) :
    p.afterCalls (calls ++ [call]) = stateAfter (call.run (p.afterCalls calls)) := by
  rw [afterCalls, afterCalls, List.foldl_append]
  rfl

/-- The constructs that a number of calls leave open, the innermost first: those that the last call
opens and does not close, on top of what the calls before it leave open. -/
inductive LeavesOpen (p : Parser) : List Call → List Construct → Prop
  | none : LeavesOpen p [] []
  | call {calls : List Call} {behind own : List Construct} {call : Call} {ts : List Turn}
      (h : LeavesOpen p calls behind) (hts : Takes call.run (p.afterCalls calls) ts)
      (hown : Settles behind.length [] ts own) : LeavesOpen p (calls ++ [call]) (own ++ behind)

/-- A call that reads an expression has an account, from any state within the limit. -/
theorem expression_takes {p : Parser} (hp : p.depth ≤ maxNestingDepth) :
    ∃ ts, Takes Parser.expression p ts := by
  obtain ⟨ts, hts⟩ := (level_routine (maxNestingDepth - p.depth)).expression.takes
    (Nat.add_sub_of_le hp)
  exact ⟨[] ++ ts, .goOn (.step .get p) rfl hts⟩

/-- Every call has an account. -/
theorem Call.takes (call : Call) {p : Parser} (hp : p.depth ≤ maxNestingDepth) :
    ∃ ts, Takes call.run p ts := by
  cases call with
  | expression => exact expression_takes hp
  | whole =>
    obtain ⟨ts, hts⟩ := expression_takes hp
    refine hts.bind fun e q hq ↦ ?_
    have hend : Routine (maxNestingDepth - q.depth) (check (· == .eof) >>= fun b ↦
        if b then pure e else unexpected .endOfInput) :=
      (check_routine _).bind fun b ↦ by
        cases b with
        | false => exact unexpected_routine _
        | true => exact pure_routine e
    exact hend.takes (Nat.add_sub_of_le (hq ▸ hp))
  | template => exact template_routine.takes (Nat.add_sub_of_le hp)

/-- **The counter is the number of constructs that are left open**, after any number of calls. -/
theorem LeavesOpen.depth_eq {p : Parser} {calls : List Call} {behind : List Construct}
    (h : LeavesOpen p calls behind) (hp : p.depth = 0) :
    (p.afterCalls calls).depth = behind.length ∧ behind.length ≤ maxNestingDepth := by
  induction h with
  | none => exact ⟨hp, Nat.zero_le _⟩
  | @call calls behind own call ts _ hts hown ih =>
    obtain ⟨hdepth, hle⟩ := ih
    obtain ⟨own', hs, hb⟩ := hts.balance
    rw [hdepth] at hs
    obtain rfl := hown.unique hs
    rw [afterCalls_append, hb.depth_stateAfter, hdepth, List.length_append, Nat.add_comm]
    exact ⟨rfl, Nat.add_comm _ _ ▸ (hs.inBounds hle).1⟩

/-- What a number of calls leaves open can be told. -/
theorem exists_leavesOpen {p : Parser} (hp : p.depth = 0) (calls : List Call) :
    ∃ behind, LeavesOpen p calls behind := by
  induction calls using List.reverseRecOn with
  | nil => exact ⟨[], .none⟩
  | append_singleton calls call ih =>
    obtain ⟨behind, h⟩ := ih
    obtain ⟨hdepth, hle⟩ := h.depth_eq hp
    obtain ⟨ts, hts⟩ := call.takes (hdepth ▸ hle)
    obtain ⟨own, hs, -⟩ := hts.balance
    rw [hdepth] at hs
    exact ⟨own ++ behind, .call h hts hs⟩

/-- Nothing is open at the start. -/
theorem depth_of_ofLexer {l : Lexer} {o : ParseOptions} {p : Parser} (h : ofLexer l o = .ok p) :
    p.depth = 0 := by
  rw [ofLexer] at h
  split at h
  split at h
  · cases h
    rfl
  · cases h

/-- **The counter is sound, however a parser is used.**  Whatever it was asked for, and whether that
succeeded or not, its counter is the number of constructs that were left open, which is never above
the limit.  A call goes on from there by the turns of some account, and by any account: a success
leaves the counter as it was, and an error raises it by the constructs that the call opened and did
not close.  The error is the one about the limit if and only if a construct was refused; that is
where the open constructs of this call and those left open by the calls before it are as many as may
be. -/
theorem nesting_of_calls {l : Lexer} {o : ParseOptions} {p₀ : Parser} (h₀ : ofLexer l o = .ok p₀)
    (calls : List Call) :
    (∃ behind, LeavesOpen p₀ calls behind) ∧
    ∀ behind, LeavesOpen p₀ calls behind →
      let p := p₀.afterCalls calls
      p.depth = behind.length ∧ p.depth ≤ maxNestingDepth ∧
      ∀ call : Call,
        (∃ ts, Takes call.run p ts) ∧
        ∀ ts, Takes call.run p ts → (∀ t ∈ ts, t.InBounds) ∧
          ∃ own, Settles behind.length [] ts own ∧
            (∀ e q, call.run p = .ok e q → own = [] ∧ q.depth = p.depth) ∧
            (∀ e q, call.run p = .error e q →
              q.depth = p.depth + own.length ∧ q.depth ≤ maxNestingDepth ∧
              (e.cause = .nestedTooDeeply ↔ ∃ c n, .refused c n ∈ ts)) := by
  have hp₀ := depth_of_ofLexer h₀
  refine ⟨exists_leavesOpen hp₀ calls, ?_⟩
  intro behind hbehind p
  obtain ⟨hdepth, hle⟩ := hbehind.depth_eq hp₀
  refine ⟨hdepth, hdepth ▸ hle, fun call ↦ ⟨call.takes (hdepth ▸ hle), fun ts hts ↦ ?_⟩⟩
  obtain ⟨own, hs, hb⟩ := hts.balance
  have hs' : Settles behind.length [] ts own := hdepth ▸ hs
  obtain ⟨hle', hbounds⟩ := hs'.inBounds hle
  refine ⟨hbounds, own, hs', fun e q hr ↦ ?_, fun e q hr ↦ ?_⟩
  · rw [hr] at hb
    obtain ⟨hown, hq, -⟩ := hb
    exact ⟨hown, hq⟩
  · rw [hr] at hb
    obtain _ | ⟨hq, hlimit⟩ := hb
    refine ⟨hq, ?_, hlimit⟩
    rw [hq, hdepth]
    exact hle'

/-- Asked for the whole of `!(`, a parser fails at the end of it and leaves two constructs open. -/
theorem nesting_of_calls_group :
    ∃ p₀ behind, ofLexer (Lexer.condition "!(") {} = .ok p₀ ∧ LeavesOpen p₀ [.whole] behind ∧
      behind.length = 2 := by
  obtain ⟨p₀, h₀⟩ : ∃ p₀, ofLexer (Lexer.condition "!(") {} = .ok p₀ := ⟨_, rfl⟩
  have hleft : ((ofLexer (Lexer.condition "!(") {}).toOption.map fun p ↦
      (p.afterCalls [.whole]).depth) = some 2 := by decide
  obtain ⟨⟨behind, hopen⟩, hcalls⟩ := nesting_of_calls h₀ [.whole]
  obtain ⟨hdepth, -⟩ := hcalls behind hopen
  rw [h₀] at hleft
  exact ⟨p₀, behind, h₀, hopen, hdepth.symm.trans (Option.some.inj hleft)⟩

end Parser

end RequestCondition

import RequestCondition.Parser.Grammar

/-!
# What parsing steps do

Every parser is made of a few steps, and a proof about one goes through it step by step.  The first
section says what becomes of each step when a parser is run: `bind_eq_ok_iff` and
`bind_eq_error_iff` take a run apart where one step hands over to the next.

A run that goes well does nothing to the state but move on, token by token.  `Parser.Moves p ts q`
says that `q` is where `p` is behind the tokens `ts`, the first of which is the one that `p` looks
at.  It is a relation between states, without a word about what is built on the way, and it is what
the grammar is compared with: the tokens moved over are the tokens of a phrase.

`Parser.weight` counts the tokens that are left.  Moving on uses it up, and the bound that the loops
of the grammar start with is above it, so no loop is ever cut short by its bound.

The steps are few because the grammar is written with few: `advance` and `discard` to move on,
`expect` to ask for a token, `nested` to go down one level.  The lemmas below are equivalences where
they can be.  Such a lemma is used from left to right where a run is known to have gone well, and
from right to left where a run is to be made, so the two halves of the comparison with the grammar
share them.

Two details of the steps show in the statements.  A step that fails leaves the state as it is, but
for `discard`, which forgets its token before it fails.  And opening a construct changes the count
of open constructs and nothing else (`withDepth`), so moves can be taken out of the construct that
they are made in (`Moves.closed`).
-/

set_option autoImplicit false

namespace RequestCondition

namespace Parser

variable {α β : Type}

/-! ## Taking runs apart

A run of two steps goes well if both do, and fails in the first or behind it.  The steps that look
without moving are simplified away. -/

/-- Two steps go well if both do. -/
theorem bind_eq_ok_iff {x : ParserM α} {f : α → ParserM β} {p r : Parser} {b : β} :
    (x >>= f) p = .ok b r ↔ ∃ a q, x p = .ok a q ∧ f a q = .ok b r := by
  change EStateM.bind x f p = _ ↔ _
  rw [EStateM.bind]
  cases h : x p with
  | ok a q =>
    refine ⟨fun hr ↦ ⟨a, q, rfl, hr⟩, ?_⟩
    rintro ⟨_, _, ⟨⟩, hr⟩
    exact hr
  | error e q => simp

/-- Two steps fail if the first does, or if it goes well and the second fails. -/
theorem bind_eq_error_iff {x : ParserM α} {f : α → ParserM β} {p r : Parser} {e : ParseError} :
    (x >>= f) p = .error e r ↔
      x p = .error e r ∨ ∃ a q, x p = .ok a q ∧ f a q = .error e r := by
  change EStateM.bind x f p = _ ↔ _
  rw [EStateM.bind]
  cases h : x p with
  | ok a q =>
    refine ⟨fun hr ↦ .inr ⟨a, q, rfl, hr⟩, ?_⟩
    rintro (hr | ⟨_, _, ⟨⟩, hr⟩)
    · cases hr
    · exact hr
  | error e q => simp

theorem bind_of_ok {x : ParserM α} {p q : Parser} {a : α} (h : x p = .ok a q)
    (f : α → ParserM β) : (x >>= f) p = f a q := by
  change EStateM.bind x f p = _
  rw [EStateM.bind, h]

theorem bind_of_error {x : ParserM α} {p q : Parser} {e : ParseError} (h : x p = .error e q)
    (f : α → ParserM β) : (x >>= f) p = .error e q := by
  change EStateM.bind x f p = _
  rw [EStateM.bind, h]

@[simp] theorem peek_bind (f : Token → ParserM β) (p : Parser) :
    (peek >>= f) p = f p.current p := rfl

/-- Looking at the current token leads on to what is done about it. -/
theorem of_peek_bind {f : Token → ParserM β} {p : Parser} {r : EStateM.Result ParseError Parser β}
    (h : (peek >>= f) p = r) : ∃ m, f p.current = m ∧ m p = r :=
  ⟨_, rfl, h⟩

@[simp] theorem check_bind (test : Token → Bool) (f : Bool → ParserM β) (p : Parser) :
    (check test >>= f) p = f (test p.current) p := rfl

@[simp] theorem get_bind (f : Parser → ParserM β) (p : Parser) :
    ((get : ParserM Parser) >>= f) p = f p p := rfl

theorem of_get_bind {f : Parser → ParserM β} {p : Parser} {r : EStateM.Result ParseError Parser β}
    (h : ((get : ParserM Parser) >>= f) p = r) : ∃ m, f p = m ∧ m p = r :=
  ⟨_, rfl, h⟩

@[simp] theorem unexpected_run (expected : Expectation) (p : Parser) :
    (unexpected expected : ParserM α) p =
      .error ⟨.unexpected expected p.current, p.offset⟩ p := rfl

@[simp] theorem failWith_run (cause : ParseCause) (p : Parser) :
    (failWith cause : ParserM α) p = .error ⟨cause, p.offset⟩ p := rfl

/-- The state with another count of open constructs. -/
def withDepth (p : Parser) (n : Nat) : Parser := { p with depth := n }

@[simp] theorem withDepth_current (p : Parser) (n : Nat) :
    (p.withDepth n).current = p.current := rfl

@[simp] theorem withDepth_depth (p : Parser) (n : Nat) : (p.withDepth n).depth = n := rfl

@[simp] theorem withDepth_options (p : Parser) (n : Nat) :
    (p.withDepth n).options = p.options := rfl

@[simp] theorem withDepth_self (p : Parser) : p.withDepth p.depth = p := rfl

@[simp] theorem withDepth_withDepth (p : Parser) (m n : Nat) :
    (p.withDepth m).withDepth n = p.withDepth n := rfl

/-- The state with its token counted as used up. -/
def cleared (p : Parser) : Parser := { p with current := .eof }

@[simp] theorem clear_bind (f : Unit → ParserM β) (p : Parser) :
    (clear >>= f) p = f () p.cleared := rfl

@[simp] theorem cleared_depth (p : Parser) : p.cleared.depth = p.depth := rfl

theorem cleared_withDepth (p : Parser) (n : Nat) :
    p.cleared.withDepth n = (p.withDepth n).cleared := rfl

/-! ## Moving on

All that moves a parser is `advance`.  The relation `Moves` puts its steps together and keeps count
of the tokens. -/

/-- Moving on takes the next lexeme, which must be a token. -/
theorem advance_eq_ok_iff {p q : Parser} :
    advance p = .ok () q ↔ ∃ t start s, p.lexemes.next = (⟨.ok t, start⟩, s) ∧
      q = { p with lexemes := s, current := t, offset := start } := by
  rw [advance]
  rcases h : p.lexemes.next with ⟨⟨e | t, start⟩, s⟩
  · simp
  · constructor
    · rintro ⟨⟩
      exact ⟨t, start, s, rfl, rfl⟩
    · rintro ⟨_, _, _, ⟨⟩, rfl⟩
      rfl

/-- What is looked at has no part in moving on. -/
theorem advance_cleared_eq_ok_iff {p q : Parser} :
    advance p.cleared = .ok () q ↔ advance p = .ok () q := by
  rw [advance_eq_ok_iff, advance_eq_ok_iff]
  rfl

/-- To move on for good is to move on, where that goes well. -/
theorem discard_eq_ok_iff {p q : Parser} : discard p = .ok () q ↔ advance p = .ok () q :=
  advance_cleared_eq_ok_iff

theorem discard_of_advance {p q : Parser} (h : advance p = .ok () q) : discard p = .ok () q :=
  discard_eq_ok_iff.2 h

/-- Moving on fails at a malformed token and nowhere else. -/
theorem kind_of_advance_eq_error {p q : Parser} {e : ParseError} (h : advance p = .error e q) :
    e.kind = .lexical := by
  rw [advance] at h
  rcases hn : p.lexemes.next with ⟨⟨e' | t, start⟩, s⟩
  · rw [hn] at h
    obtain ⟨rfl, -⟩ := EStateM.Result.error.inj h
    rfl
  · rw [hn] at h
    cases h

/-- What is open has no part in moving on. -/
theorem advance_withDepth {p q : Parser} (n : Nat) (h : advance p = .ok () q) :
    advance (p.withDepth n) = .ok () (q.withDepth n) := by
  obtain ⟨t, start, s, hn, rfl⟩ := advance_eq_ok_iff.1 h
  exact advance_eq_ok_iff.2 ⟨t, start, s, hn, rfl⟩

/-- `q` is where `p` is behind the tokens `ts`.  The end of a source is no token to move over. -/
inductive Moves : Parser → List Token → Parser → Prop
  | stay (p : Parser) : Moves p [] p
  | step {p q r : Parser} {ts : List Token} (hp : p.current ≠ .eof) (h : advance p = .ok () q)
      (hq : Moves q ts r) : Moves p (p.current :: ts) r

namespace Moves

variable {p q r : Parser} {ts us : List Token} {t : Token}

theorem one (hp : p.current = t) (ht : t ≠ .eof) (h : advance p = .ok () q) : Moves p [t] q := by
  subst hp
  exact step ht h (stay q)

theorem trans (h : Moves p ts q) (h' : Moves q us r) : Moves p (ts ++ us) r := by
  induction h with
  | stay p => exact h'
  | step hp ha _ ih => exact step hp ha (ih h')

theorem cons (hp : p.current = t) (ht : t ≠ .eof) (h : advance p = .ok () q) (h' : Moves q ts r) :
    Moves p (t :: ts) r :=
  (one hp ht h).trans h'

theorem snoc (h : Moves p ts q) (hq : q.current = t) (ht : t ≠ .eof) (h' : advance q = .ok () r) :
    Moves p (ts ++ [t]) r :=
  h.trans (one hq ht h')

theorem uncons (h : Moves p (t :: ts) r) :
    p.current = t ∧ t ≠ .eof ∧ ∃ q, advance p = .ok () q ∧ Moves q ts r := by
  cases h with
  | step hp ha hq => exact ⟨rfl, hp, _, ha, hq⟩

/-- Moves can be cut in two wherever their tokens are. -/
theorem split (h : Moves p (ts ++ us) r) : ∃ q, Moves p ts q ∧ Moves q us r := by
  induction ts generalizing p with
  | nil => exact ⟨p, stay p, h⟩
  | cons t ts ih =>
    obtain ⟨hp, ht, q, ha, hq⟩ := uncons h
    obtain ⟨q', h₁, h₂⟩ := ih hq
    exact ⟨q', cons hp ht ha h₁, h₂⟩

theorem eq_of_nil (h : Moves p [] q) : q = p := by
  cases h
  rfl

theorem options_eq (h : Moves p ts q) : q.options = p.options := by
  induction h with
  | stay p => rfl
  | step hp ha _ ih =>
    obtain ⟨t, start, s, -, rfl⟩ := advance_eq_ok_iff.1 ha
    exact ih

theorem depth_eq (h : Moves p ts q) : q.depth = p.depth := by
  induction h with
  | stay p => rfl
  | step hp ha _ ih =>
    obtain ⟨t, start, s, -, rfl⟩ := advance_eq_ok_iff.1 ha
    exact ih

theorem withDepth (h : Moves p ts q) (n : Nat) : Moves (p.withDepth n) ts (q.withDepth n) := by
  induction h with
  | stay p => exact stay _
  | step hp ha _ ih => exact cons rfl hp (advance_withDepth n ha) ih

/-- Closing the construct that was opened first leaves nothing but the moves between. -/
theorem closed (h : Moves (p.withDepth (p.depth + 1)) ts q) :
    Moves p ts (q.withDepth (q.depth - 1)) := by
  have h' := h.withDepth p.depth
  rw [withDepth_withDepth, withDepth_self] at h'
  rw [h.depth_eq, withDepth_depth, Nat.add_sub_cancel]
  exact h'

/-- Two ways over the same tokens to the same token start at the same token. -/
theorem current_eq {p' q' : Parser} (h : Moves p ts q) (h' : Moves p' ts q')
    (hq : q.current = q'.current) : p.current = p'.current := by
  cases ts with
  | nil => rw [← h.eq_of_nil, ← h'.eq_of_nil, hq]
  | cons t ts => rw [h.uncons.1, h'.uncons.1]

end Moves

/-! ## What is left

The loops of the grammar are given a number of rounds, and go round at most once for each token. -/

/-- The number of tokens that are left, the one looked at included. -/
def weight (p : Parser) : Nat :=
  p.lexemes.ahead.length + if p.current = .eof then 0 else 1

/-- The bound of a loop is above the number of tokens that are left. -/
theorem weight_lt_fuel (p : Parser) : p.weight < p.fuel := by
  rw [weight, fuel]
  split <;> omega

/-- Moving on uses up a token. -/
theorem weight_lt_of_advance {p q : Parser} (hp : p.current ≠ .eof) (h : advance p = .ok () q) :
    q.weight < p.weight := by
  obtain ⟨t, start, s, hn, rfl⟩ := advance_eq_ok_iff.1 h
  rw [weight, weight, if_neg hp]
  rw [LexemeStream.next] at hn
  split at hn
  · -- nothing is ahead, so the stream repeats its last answer, and that is no token
    rename_i hs
    obtain ⟨hl, rfl⟩ := Prod.mk.inj hn
    have ht : t = .eof := by
      rw [LexemeStream.last] at hl
      split at hl
      · exact (Except.ok.inj (Lexeme.mk.inj hl).1).symm
      · exact absurd (Lexeme.mk.inj hl).1 (by simp)
    simp [ht, hs]
  · rename_i x xs hs
    obtain ⟨-, rfl⟩ := Prod.mk.inj hn
    rw [hs]
    simp only [List.length_cons]
    split <;> omega

/-- Moves use up the tokens they move over. -/
theorem Moves.weight_add_length_le {p q : Parser} {ts : List Token} (h : Moves p ts q) :
    q.weight + ts.length ≤ p.weight := by
  induction h with
  | stay p => simp
  | step hp ha _ ih =>
    have := weight_lt_of_advance hp ha
    rw [List.length_cons]
    omega

/-- The bound of a loop that starts here is above the number of tokens that any way on moves
over. -/
theorem Moves.length_lt_fuel {p q : Parser} {ts : List Token} (h : Moves p ts q) :
    ts.length < p.fuel := by
  have := h.weight_add_length_le
  have := p.weight_lt_fuel
  omega

/-! ## Given tokens

What a parser does that knows which token must come. -/

/-- Asking for a token succeeds by moving over it. -/
theorem expect_eq_ok_iff {t : Token} {p q : Parser} :
    expect t p = .ok () q ↔ p.current = t ∧ advance p = .ok () q := by
  rw [expect, check_bind]
  by_cases h : p.current = t <;> simp [h]

/-- Where the token is there, asking for it is moving on. -/
theorem expect_of_advance {t : Token} {p q : Parser} (hp : p.current = t)
    (h : advance p = .ok () q) : expect t p = .ok () q :=
  expect_eq_ok_iff.2 ⟨hp, h⟩

/-- Asking for a token fails before it if something else stands there. -/
theorem expect_eq_error_of_ne {t : Token} {p : Parser} (h : p.current ≠ t) :
    expect t p = .error ⟨.unexpected (.token t) p.current, p.offset⟩ p := by
  rw [expect, check_bind]
  simp [h]

/-- A construct that nests is read one level down, with one more construct open. -/
theorem nested_eq_ok_iff {below : Option Grammar} {inside : Grammar → ParserM α} {p r : Parser}
    {a : α} : nested below inside p = .ok a r ↔ ∃ g q, below = some g ∧
      inside g (p.withDepth (p.depth + 1)) = .ok a q ∧ r = q.withDepth (q.depth - 1) := by
  cases below with
  | none => simp [nested]
  | some g =>
    have h : nested (some g) inside p =
        (inside g >>= fun a ↦ leave >>= fun _ ↦ pure a) (p.withDepth (p.depth + 1)) := rfl
    rw [h, bind_eq_ok_iff]
    constructor
    · rintro ⟨b, q, hq, hr⟩
      obtain ⟨rfl, rfl⟩ := EStateM.Result.ok.inj hr
      exact ⟨g, q, rfl, hq, rfl⟩
    · rintro ⟨_, q, ⟨⟩, hq, rfl⟩
      exact ⟨a, q, hq, rfl⟩

/-- A construct that fails on the inside fails as its inside does, and stays open. -/
theorem nested_some_eq_error_iff {g : Grammar} {inside : Grammar → ParserM α} {p r : Parser}
    {e : ParseError} : nested (some g) inside p = .error e r ↔
      inside g (p.withDepth (p.depth + 1)) = .error e r := by
  have h : nested (some g) inside p =
      (inside g >>= fun a ↦ leave >>= fun _ ↦ pure a) (p.withDepth (p.depth + 1)) := rfl
  rw [h, bind_eq_error_iff]
  constructor
  · rintro (hr | ⟨a, q, -, hr⟩)
    · exact hr
    · cases hr
  · exact Or.inl

end Parser

end RequestCondition

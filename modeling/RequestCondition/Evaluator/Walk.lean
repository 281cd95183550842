import RequestCondition.Context
import RequestCondition.Evaluator.Error
import RequestCondition.Regex.Engine

/-!
# Walks over a tree

Evaluating a tree is a walk.  It starts from the groups of the last regex match, it leaves the
groups of the last match behind, and on its way it asks the host, calls functions and logs.  All of
that is part of its outcome, whether the walk reaches a value or an error: `Outcome.events` tells
what happened, in order.

`Walk` is a monad, and a lawful one; a walk that goes on from another one starts from the groups
that the other one left, and its events come behind.
-/

set_option autoImplicit false

namespace RequestCondition

/-- The texts of the groups of a match, the whole match first; none after a search that found
nothing. -/
structure Captures where
  groups : List String
deriving DecidableEq

namespace Captures

def none : Captures := ⟨[]⟩

/-- What a search leaves.  A group that took no part in the match is kept as the empty text. -/
def ofFound : Option Regex.Groups → Captures
  | some groups => ⟨groups.map fun group ↦ group.getD ""⟩
  | .none => none

@[simp] theorem groups_ofFound (found : Option Regex.Groups) :
    (ofFound found).groups = (found.getD []).map fun group ↦ group.getD "" := by
  cases found <;> rfl

/-- The group with a number, if there is one. -/
def group? (c : Captures) (n : Nat) : Option String := c.groups[n]?

/-- What a reference to a group reads. -/
def text (c : Captures) (n : Nat) : String := (c.group? n).getD ""

def isEmpty (c : Captures) : Bool := c.groups.isEmpty

end Captures

/-- What happens on a walk. -/
inductive Event where
  /-- The host is asked for a variable. -/
  | lookup (ref : VarRef) (answer : Lookup)
  /-- A function is called. -/
  | call (name : String) (args : List Value) (log : List LogRecord)
  /-- A regex searches a text. -/
  | search (regex : RegexLiteral) (subject : String) (found : Option Regex.Groups)
  /-- A reference reads a group. -/
  | backref (n : Nat) (text : String)
  /-- A text is taken for a number that it does not say. -/
  | warning (record : LogRecord)

namespace Event

/-- The variable asked for. -/
def lookup? : Event → Option VarRef
  | lookup ref _ => some ref
  | _ => none

/-- The function called, with its arguments. -/
def call? : Event → Option (String × List Value)
  | call name args _ => some (name, args)
  | _ => none

/-- What an event leaves in the log. -/
def log : Event → List LogRecord
  | lookup ref .unresolved =>
    [⟨.trace, "variable " ++ ref.name ++ " unresolved, using empty string"⟩]
  | lookup _ _ => []
  | call _ _ log => log
  | search regex subject found =>
    [⟨.trace, "/" ++ regex.pattern ++ "/ against " ++ quoted subject ++ ": " ++
      (if found.isSome then "true" else "false")⟩]
  | backref _ _ => []
  | warning record => [record]

end Event

/-- Where a walk leads. -/
structure Outcome (α : Type) where
  result : Except EvalError α
  captures : Captures
  events : List Event

namespace Outcome

variable {α : Type}

/-- The variables asked for, in order. -/
def lookups (o : Outcome α) : List VarRef := o.events.filterMap Event.lookup?

/-- The functions called, in order. -/
def calls (o : Outcome α) : List (String × List Value) := o.events.filterMap Event.call?

/-- The log, in order. -/
def log (o : Outcome α) : List LogRecord := o.events.flatMap Event.log

end Outcome

/-- A walk, from the groups of the match before it. -/
def Walk (α : Type) : Type := Captures → Outcome α

namespace Walk

variable {α β : Type}

/-- Stays where it is. -/
protected def pure (a : α) : Walk α := fun c ↦ ⟨.ok a, c, []⟩

/-- Goes on from where a walk leads, unless that is an error. -/
protected def bind (w : Walk α) (f : α → Walk β) : Walk β := fun c ↦
  match w c with
  | ⟨.ok a, c', es⟩ => ⟨(f a c').result, (f a c').captures, es ++ (f a c').events⟩
  | ⟨.error e, c', es⟩ => ⟨.error e, c', es⟩

instance : Monad Walk where
  pure := Walk.pure
  bind := Walk.bind

theorem pure_apply (a : α) (c : Captures) : (pure a : Walk α) c = ⟨.ok a, c, []⟩ := rfl

theorem bind_ok {w : Walk α} {c c' : Captures} {a : α} {es : List Event} (f : α → Walk β)
    (h : w c = ⟨.ok a, c', es⟩) :
    (w >>= f) c = ⟨(f a c').result, (f a c').captures, es ++ (f a c').events⟩ := by
  change Walk.bind w f c = _
  rw [Walk.bind, h]

theorem bind_error {w : Walk α} {c c' : Captures} {e : EvalError} {es : List Event}
    (f : α → Walk β) (h : w c = ⟨.error e, c', es⟩) : (w >>= f) c = ⟨.error e, c', es⟩ := by
  change Walk.bind w f c = _
  rw [Walk.bind, h]

theorem bind_pure_self (w : Walk α) : Walk.bind w Walk.pure = w := by
  funext c
  rw [Walk.bind]
  split <;> simp_all [Walk.pure]

theorem pure_bind_eq (a : α) (f : α → Walk β) : Walk.bind (Walk.pure a) f = f a := by
  funext c
  simp [Walk.bind, Walk.pure]

theorem bind_bind {γ : Type} (w : Walk α) (f : α → Walk β) (g : β → Walk γ) :
    Walk.bind (Walk.bind w f) g = Walk.bind w fun a ↦ Walk.bind (f a) g := by
  funext c
  simp only [Walk.bind]
  rcases w c with ⟨_ | a, c', es⟩
  · rfl
  · rcases hf : f a c' with ⟨_ | b, c'', es'⟩ <;> simp [hf]

instance : LawfulMonad Walk :=
  LawfulMonad.mk' Walk (fun w ↦ bind_pure_self w) (fun a f ↦ pure_bind_eq a f)
    (fun w f g ↦ bind_bind w f g)

/-! ## Steps -/

/-- Ends in an error. -/
def fail (e : EvalError) : Walk α := fun c ↦ ⟨.error e, c, []⟩

/-- Tells that something happened. -/
def tell (es : List Event) : Walk Unit := fun c ↦ ⟨.ok (), c, es⟩

/-- Reads the group with a number. -/
def backref (n : Nat) : Walk String := fun c ↦ ⟨.ok (c.text n), c, [.backref n (c.text n)]⟩

/-- Leaves what a search has found, and tells whether it is anything. -/
def leave (regex : RegexLiteral) (subject : String) (found : Option Regex.Groups) : Walk Bool :=
  fun _ ↦ ⟨.ok found.isSome, .ofFound found, [.search regex subject found]⟩

/-- Takes the answer of a function. -/
def answer (name : String) (args : List Value) (result : Except EvalError Value)
    (log : List LogRecord) : Walk Value := fun c ↦ ⟨result, c, [.call name args log]⟩

end Walk

end RequestCondition

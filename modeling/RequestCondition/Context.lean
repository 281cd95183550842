import RequestCondition.Dictionary
import RequestCondition.Expr
import RequestCondition.Value

/-!
# Contexts

A `Context` answers for the variables that a condition refers to.  It may know a variable, not know
it, or refuse to say; only a refusal stops an evaluation.

`Bindings` is the context that keeps its variables in a dictionary.  Where it is strict it refuses
what it does not know.
-/

set_option autoImplicit false

namespace RequestCondition

/-- The answer to the question for a variable. -/
inductive Lookup where
  | resolved (value : Value)
  | unresolved
  /-- The host refuses, for a reason. -/
  | refused (reason : String)
deriving DecidableEq

/-- What the host knows about variables. -/
abbrev Context := VarRef → Lookup

/-- Variables in a dictionary. -/
structure Bindings where
  values : Dictionary Value
  strict : Bool

namespace Bindings

/-- No variables. -/
def empty (strict : Bool) : Bindings := ⟨.empty, strict⟩

def insert (b : Bindings) (name : String) (value : Value) : Bindings :=
  { b with values := b.values.insert name value }

def erase (b : Bindings) (name : String) : Bindings := { b with values := b.values.erase name }

def size (b : Bindings) : Nat := b.values.size

def isEmpty (b : Bindings) : Bool := b.size == 0

/-- The answers that bindings give: by the key of a reference. -/
def context (b : Bindings) : Context := fun ref ↦
  match b.values.find? ref.key with
  | some v => .resolved v
  | none =>
    if b.strict then .refused ("variable '" ++ ref.key ++ "' is not defined") else .unresolved

end Bindings

end RequestCondition

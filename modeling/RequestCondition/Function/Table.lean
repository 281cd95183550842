import RequestCondition.Dictionary
import RequestCondition.Evaluator.Error
import RequestCondition.Value

/-!
# Functions and their table

Calls, tests of one operand and tests of two all go by name through a `FunctionTable`.  Operators
are entered with their dash, so they never meet the name of a function.

A body is given with the number of its arguments, but it gets them as a list and takes from it what
it likes.  Nothing but the two beside each other says that it finds there what it asks for
(`FunctionBody.Complete`); so a `Function` holds the proof, and a call, which counts the arguments
first, always has a reply.
-/

set_option autoImplicit false

namespace RequestCondition

/-- What a function answers: a value or an error, and what it has to log. -/
structure Reply where
  result : Except EvalError Value
  log : List LogRecord := []

namespace Reply

def ok (v : Value) : Reply := ⟨.ok v, []⟩

def error (e : EvalError) : Reply := ⟨.error e, []⟩

/-- The value or the error of a function that logs nothing. -/
def ofExcept (r : Except EvalError Value) : Reply := ⟨r, []⟩

end Reply

/-- What a function does with its arguments. -/
structure FunctionBody where
  /-- The number of arguments. -/
  arity : Nat
  /-- The reply to some arguments, `none` if one is asked for that is not there. -/
  run : List Value → Option Reply

/-- As many arguments as a body has to be given are enough for it. -/
def FunctionBody.Complete (b : FunctionBody) : Prop :=
  ∀ args, args.length = b.arity → (b.run args).isSome

/-- An entry of the table: a body under the name that conditions call it by. -/
structure Function where
  name : String
  body : FunctionBody
  complete : body.Complete

namespace Function

/-- A function of the host, which replies to any arguments. -/
def host (name : String) (arity : Nat) (run : List Value → Reply) : Function where
  name := name
  body := ⟨arity, fun args ↦ some (run args)⟩
  complete _ _ := rfl

def arity (f : Function) : Nat := f.body.arity

/-- Counts the arguments, and runs the body if the number is right. -/
def call (f : Function) (args : List Value) : Reply :=
  if h : args.length = f.arity then (f.body.run args).get (f.complete args h)
  else .error (.arity f.name f.arity args.length)

variable {f : Function} {args : List Value}

theorem run_eq_some_call (h : args.length = f.arity) : f.body.run args = some (f.call args) := by
  rw [call, dif_pos h, Option.some_get]

/-- Where the number of arguments is wrong, the body is not run. -/
theorem call_of_length_ne (h : args.length ≠ f.arity) :
    f.call args = .error (.arity f.name f.arity args.length) := dif_neg h

/-- The record that shows an entry. -/
def summary (f : Function) : String :=
  "Function \x7b name: " ++ quoted f.name ++ ", arity: " ++ toString f.arity ++ " \x7d"

end Function

/-- Functions under their names. -/
abbrev FunctionTable := Dictionary Function

namespace FunctionTable

/-- Adds an entry or replaces one. -/
def register (t : FunctionTable) (f : Function) : FunctionTable := t.insert f.name f

/-- Functions under their names. -/
def ofFunctions (fs : List Function) : FunctionTable :=
  Dictionary.ofList (fs.map fun f ↦ (f.name, f))

theorem mem_of_find?_ofFunctions {fs : List Function} {name : String} {f : Function}
    (h : (ofFunctions fs).find? name = some f) : f ∈ fs ∧ f.name = name := by
  obtain ⟨g, hg, he⟩ := List.mem_map.1 (Dictionary.mem_of_find?_ofList h)
  obtain ⟨rfl, rfl⟩ := Prod.mk.inj he
  exact ⟨hg, rfl⟩

/-- Calls a function by name. -/
def call (t : FunctionTable) (name : String) (args : List Value) : Reply :=
  match t.find? name with
  | some f => f.call args
  | none => .error (.unknownFunction name)

end FunctionTable

end RequestCondition

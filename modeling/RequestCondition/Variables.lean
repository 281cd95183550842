import RequestCondition.Context
import RequestCondition.Json.Printer
import RequestCondition.Json.Reader

/-!
# Variables and results in JSON

Variables come as the members of a JSON object.  A truth value, a text or a number is bound as it
is, and null as the empty text; arrays and objects cannot be bound.  A number becomes the decimal
that its text says, so a number in JSON that is a double is bound with the digits that JSON would
write for it.

A value goes back as the JSON value of its kind.  A number is written at its smallest scale and then
read as JSON, so one that is not whole or has more than 64 bits goes back as the double next to it.
-/

set_option autoImplicit false

namespace RequestCondition

/-- Why a JSON value cannot be bound. -/
inductive VariablesError where
  | notObject
  | notScalar (json : Json)
  | outOfRange (number : JsonNumber) (cause : DecimalError)

namespace VariablesError

def message : VariablesError → String
  | notObject => "variables must be a JSON object"
  | notScalar json => "expected a string, number or boolean, got " ++ json.compact
  | outOfRange number cause => "number " ++ number.text ++ " out of range: " ++ cause.message

end VariablesError

namespace Value

/-- The value that a JSON value is bound as. -/
def ofJson : Json → Except VariablesError Value
  | .null => .ok (.string "")
  | .boolean b => .ok (.boolean b)
  | .number n =>
    match Decimal.ofText n.text with
    | .ok d => .ok (.number d)
    | .error e => .error (.outOfRange n e)
  | .string s => .ok (.string s)
  | .array items => .error (.notScalar (.array items))
  | .object members => .error (.notScalar (.object members))

/-- The JSON value of a value. -/
def toJson : Value → Json
  | boolean b => .boolean b
  | string s => .string s
  | number n =>
    match JsonNumber.ofText? n.normalize.toText with
    | some m => .number m
    | none => .string n.normalize.toText

end Value

namespace Bindings

/-- Binds members one after another. -/
def insertMembers (b : Bindings) : List (String × Json) → Except VariablesError Bindings
  | [] => .ok b
  | (name, json) :: rest => do
    let v ← Value.ofJson json
    insertMembers (b.insert name v) rest

/-- The variables that a JSON value names. -/
def ofJson (strict : Bool) : Json → Except VariablesError Bindings
  | .object members => insertMembers (.empty strict) members
  | _ => .error .notObject

end Bindings

end RequestCondition

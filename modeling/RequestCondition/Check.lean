import RequestCondition.Evaluator.Basic
import RequestCondition.Function.Builtin
import RequestCondition.Variables

/-!
# Checking a condition

A check reads a condition or a template and evaluates it with the built-in functions against
variables given in JSON, or stops when it has read it.  The source is read before the variables
are, so of two faults the one in the source is reported.
-/

set_option autoImplicit false

namespace RequestCondition

/-- What to check. -/
structure CheckOptions where
  source : String
  /-- The variables, as a JSON object. -/
  vars : Option String
  template : Bool
  ignoreCase : Bool
  /-- Unknown variables are errors. -/
  strict : Bool
  syntaxOnly : Bool

/-- Why a check failed. -/
inductive CheckError where
  | parse (error : ParseError)
  | eval (error : EvalError)
  | json (error : JsonError)
  /-- The standard input cannot be read. -/
  | input (error : FileError)
  | badVariables (error : VariablesError)

namespace CheckError

/-- What lies behind the error, if it has been reported by another part. -/
def source? : CheckError → Option String
  | parse e => some e.display
  | eval e => some e.display
  | json e => some e.message
  | input e => some e.message
  | badVariables _ => none

/-- The whole line that reports the error. -/
def display : CheckError → String
  | parse e => "Parse error: " ++ e.display
  | eval e => "Evaluation error: " ++ e.display
  | json e => "Invalid JSON: " ++ e.message
  | input e => "IO error: " ++ e.message
  | badVariables e => "Invalid variables: " ++ e.message

end CheckError

/-- What a check that succeeds finds. -/
inductive CheckResult where
  | syntaxValid
  /-- The result, and the captures of a condition. -/
  | success (report : Json)

namespace CheckOptions

/-- The expression to check. -/
def expression (o : CheckOptions) : Except CheckError Expression :=
  (if o.template then Expression.parseTemplate o.source
    else Expression.parse o.source { ignoreCase := o.ignoreCase }).mapError .parse

/-- The variables to check it against. -/
def bindings (o : CheckOptions) : Except CheckError Bindings :=
  match o.vars with
  | none => .ok (.empty o.strict)
  | some text =>
    match Json.parse text with
    | .error e => .error (.json e)
    | .ok json => (Bindings.ofJson o.strict json).mapError .badVariables

/-- The evaluation, if there is to be one. -/
def evaluation (o : CheckOptions) (fs : FileSystem) :
    Except CheckError (Option (Outcome Value)) := do
  let x ← o.expression
  if o.syntaxOnly then pure none
  else
    let b ← o.bindings
    pure (some (x.evaluate { context := b.context, functions := .builtin fs }))

/-- What there is to report about a value and the captures left with it. -/
def report (o : CheckOptions) (v : Value) (captures : Captures) : Json :=
  if o.template then .object [("result", v.toJson)]
  else
    .object [("captures", .array (captures.groups.map .string)), ("result", .boolean v.isTruthy)]

/-- Checks. -/
def check (o : CheckOptions) (fs : FileSystem) : Except CheckError CheckResult := do
  match ← o.evaluation fs with
  | none => pure .syntaxValid
  | some outcome =>
    match outcome.result with
    | .error e => .error (.eval e)
    | .ok v => pure (.success (o.report v outcome.captures))

/-- The paths that the check asks about, in order. -/
def paths (o : CheckOptions) (fs : FileSystem) : List String :=
  match o.evaluation fs with
  | .ok (some outcome) => outcome.calls.filterMap fun (name, args) ↦ Builtin.path? name args
  | _ => []

end CheckOptions

end RequestCondition

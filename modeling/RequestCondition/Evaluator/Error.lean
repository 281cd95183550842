import RequestCondition.ErrorKind
import RequestCondition.Text.Quoted

/-!
# Evaluation errors

An evaluation fails because a function cannot be called, because the host refuses a variable, or
because a function cannot use its arguments.  The wording is in `EvalError.message` alone.
-/

set_option autoImplicit false

namespace RequestCondition

/-- Why an evaluation failed. -/
inductive EvalError where
  | unknownFunction (name : String)
  | arity (name : String) (expected given : Nat)
  | refusedLookup (name reason : String)
  | badPercentEncoding (text : String)
  | notUtf8 (text : String)
  | badNetwork (text : String)
  /-- A function of the host cannot use its arguments. -/
  | hostMismatch (message : String)
deriving DecidableEq

namespace EvalError

def kind : EvalError → ErrorKind
  | unknownFunction _ => .unknownFunction
  | arity _ _ _ => .arity
  | refusedLookup _ _ => .unknownVariable
  | badPercentEncoding _ => .typeMismatch
  | notUtf8 _ => .typeMismatch
  | badNetwork _ => .typeMismatch
  | hostMismatch _ => .typeMismatch

def message : EvalError → String
  | unknownFunction name => "unknown function '" ++ name ++ "'"
  | arity name expected given =>
    "'" ++ name ++ "' takes " ++ toString expected ++ " argument(s), got " ++ toString given
  | refusedLookup name reason => "lookup of '" ++ name ++ "' failed: " ++ reason
  | badPercentEncoding text => "invalid percent-encoding in " ++ quoted text
  | notUtf8 text => "unescaped " ++ quoted text ++ " is not valid UTF-8"
  | badNetwork text => "invalid network " ++ quoted text
  | hostMismatch message => message

/-- The whole line that reports the error. -/
def display (e : EvalError) : String := e.kind.label ++ ": " ++ e.message

end EvalError

end RequestCondition

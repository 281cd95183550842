/-!
# Kinds of errors

Every error of the library, whether a text cannot be read or a tree cannot be evaluated, is of one
of seven kinds.  Messages open with the name of the kind.
-/

set_option autoImplicit false

namespace RequestCondition

/-- The kinds of parse errors and of evaluation errors. -/
inductive ErrorKind where
  /-- A token is malformed. -/
  | lexical
  /-- A token stands where it may not. -/
  | grammar
  /-- A regex literal does not compile. -/
  | regexCompile
  /-- A function or operator cannot use an operand. -/
  | typeMismatch
  /-- The host refuses to look up a variable. -/
  | unknownVariable
  /-- A function or operator is not in the table. -/
  | unknownFunction
  /-- A function is called with the wrong number of arguments. -/
  | arity
deriving DecidableEq

namespace ErrorKind

/-- The name of a kind in messages. -/
def label : ErrorKind → String
  | lexical => "lexical error"
  | grammar => "syntax error"
  | regexCompile => "regex error"
  | typeMismatch => "type error"
  | unknownVariable => "variable error"
  | unknownFunction => "unknown function"
  | arity => "arity error"

end ErrorKind

end RequestCondition

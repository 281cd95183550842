import RequestCondition.ErrorKind
import RequestCondition.Lexer.Basic

/-!
# Parse errors

A parse error says what is wrong as a value (`ParseCause`) and where: at a byte offset.  The
wording is in `ParseCause.message` alone.
-/

set_option autoImplicit false

namespace RequestCondition

/-- What the grammar asks for at a place where something else stands. -/
inductive Expectation where
  | token (t : Token)
  | endOfInput
  | operand
  /-- A regex literal, behind a match operator. -/
  | regexLiteral
  /-- Anything but a regex literal, away from the operators that take one. -/
  | noRegexLiteral
  /-- The end of a comparison: comparisons do not chain. -/
  | noSecondComparison
  | stringPart
  | templatePart
  | variableName
deriving DecidableEq

namespace Expectation

def message : Expectation → String
  | token t => "expected " ++ t.describe
  | endOfInput => "expected end of input"
  | operand => "expected an operand"
  | regexLiteral => "expected regex literal"
  | noRegexLiteral => "a regex literal must follow '=~', '!~' or '-R'"
  | noSecondComparison => "comparison operators cannot be chained"
  | stringPart => "unexpected token in string"
  | templatePart => "unexpected token in template"
  | variableName => "expected variable name after '%\x7b'"

end Expectation

/-- What is wrong with a source text. -/
inductive ParseCause where
  | lexical (cause : LexCause)
  | unexpected (expected : Expectation) (found : Token)
  /-- The source ends where an operand should stand. -/
  | missingOperand
  | nestedTooDeeply
  | badRegex (pattern : String)
deriving DecidableEq

namespace ParseCause

def kind : ParseCause → ErrorKind
  | lexical _ => .lexical
  | unexpected _ _ => .grammar
  | missingOperand => .grammar
  | nestedTooDeeply => .grammar
  | badRegex _ => .regexCompile

def message : ParseCause → String
  | lexical c => c.message
  | unexpected expected found => expected.message ++ ", found " ++ found.describe
  | missingOperand => "unexpected end of input, expected an operand"
  | nestedTooDeeply => "expression nested too deeply"
  | badRegex pattern => "invalid regex /" ++ pattern ++ "/"

end ParseCause

/-- A parse error, and the byte offset it points at. -/
structure ParseError where
  cause : ParseCause
  offset : Nat
deriving DecidableEq

namespace ParseError

def kind (e : ParseError) : ErrorKind := e.cause.kind

def message (e : ParseError) : String := e.cause.message

/-- The whole line that reports the error. -/
def display (e : ParseError) : String :=
  e.kind.label ++ " at offset " ++ toString e.offset ++ ": " ++ e.message

/-- A lexical error met while parsing. -/
def ofLexError (e : LexError) : ParseError := ⟨.lexical e.cause, e.offset⟩

end ParseError

end RequestCondition

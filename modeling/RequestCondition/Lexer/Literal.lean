import RequestCondition.Decimal.Reader

/-!
# The insides of literals

Three kinds of token need more than a look at the next two characters: numbers, the text of
strings, and the bodies of regex literals.  Each function here reads one of them off the front of
what remains of the source, and returns the number of characters it takes along with what they
say.

* `numberText` stops before a point that no digit follows, so `1 . 5` and `1.x` have no decimal.
* `stringText` stops before whatever ends a run of text: the closing quote, a variable reference or
  a backreference.  It resolves escapes on the way.
* `regexBody` undoes the escape of the delimiter and leaves every other pair of a backslash and a
  character as it is.
-/

set_option autoImplicit false

namespace RequestCondition

def isDigit (c : Char) : Bool := '0' ≤ c && c ≤ '9'

def isLetter (c : Char) : Bool := ('a' ≤ c && c ≤ 'z') || ('A' ≤ c && c ≤ 'Z')

/-- A character that words start with. -/
def isWordStart (c : Char) : Bool := isLetter c || c == '_'

/-- A character of words. -/
def isWordChar (c : Char) : Bool := isWordStart c || isDigit c

/-- Whether the text goes on with a character of some kind. -/
def nextIs (p : Char → Bool) : List Char → Bool
  | [] => false
  | c :: _ => p c

/-! ## Numbers -/

/-- The digits at the front of a text, with a point if a digit follows it; `point` tells whether
one has been taken already. -/
def numberText (point : Bool) : List Char → List Char
  | [] => []
  | c :: cs =>
    if isDigit c then c :: numberText point cs
    else if c == '.' && !point && nextIs isDigit cs then c :: numberText true cs
    else []

/-! ## Text of strings -/

/-- The character that an escape stands for. -/
def unescape? : Char → Option Char
  | 'n' => some '\n'
  | 't' => some '\t'
  | 'r' => some '\r'
  | '"' => some '"'
  | '\'' => some '\''
  | '\\' => some '\\'
  | '$' => some '$'
  | '%' => some '%'
  | _ => none

/-- How a run of text in a string ends. -/
inductive TextEnd where
  /-- At something else, or at the end of the source. -/
  | done
  /-- Behind a backslash, at a character that cannot be escaped. -/
  | badEscape (c : Char)
  /-- Behind a backslash, at the end of the source. -/
  | cutOff
deriving DecidableEq

/-- A run of text: what it says, how it ends, and the characters it takes. -/
structure TextRun where
  text : List Char
  ending : TextEnd
  taken : Nat
deriving DecidableEq

/-- Whether text in a string stops here: at the quote, at `%` before a brace, at `$` before a
digit. -/
def stopsText (quote c : Char) (cs : List Char) : Bool :=
  c == quote || (c == '%' && nextIs (· == '\x7b') cs) || (c == '$' && nextIs isDigit cs)

/-- The text at the front of what is left of a string. -/
def stringText (quote : Char) : List Char → TextRun
  | [] => ⟨[], .done, 0⟩
  | c :: cs =>
    if stopsText quote c cs then ⟨[], .done, 0⟩
    else if c = '\\' then
      match cs with
      | [] => ⟨[], .cutOff, 1⟩
      | e :: cs' =>
        match unescape? e with
        | none => ⟨[], .badEscape e, 1⟩
        | some x =>
          let run := stringText quote cs'
          ⟨x :: run.text, run.ending, run.taken + 2⟩
    else
      let run := stringText quote cs
      ⟨c :: run.text, run.ending, run.taken + 1⟩

/-! ## Bodies of regex literals -/

/-- The pattern up to the closing delimiter, and the characters before that; `none` if there is no
closing delimiter. -/
def regexBody (delimiter : Char) : List Char → Option (List Char × Nat)
  | [] => none
  | c :: cs =>
    if c = delimiter then some ([], 0)
    else if c = '\\' then
      match cs with
      | [] => none
      | e :: cs' =>
        (regexBody delimiter cs').map fun (pattern, taken) ↦
          (if e = delimiter then e :: pattern else c :: e :: pattern, taken + 2)
    else (regexBody delimiter cs).map fun (pattern, taken) ↦ (c :: pattern, taken + 1)

/-- Whether a regex literal that ends here has a flag: an `i` that is not the start of a word. -/
def hasIgnoreCaseFlag : List Char → Bool
  | 'i' :: cs => !nextIs isWordChar cs
  | _ => false

/-- The characters that may delimit a regex literal behind an `m`. -/
def regexDelimiters : List Char := ['#', '|', '!', ',', ';', ':', '@']

end RequestCondition

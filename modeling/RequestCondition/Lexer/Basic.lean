import RequestCondition.Lexer.Cursor
import RequestCondition.Lexer.Literal
import RequestCondition.Token

/-!
# The lexer

A `Lexer` is a value; `Lexer.next` reads one token and returns the lexer that reads the following
one.  It never fails for good: after an error, and after the end, it may be asked again.

What a character means depends on where it stands, so the lexer keeps a stack of *modes*: ordinary
text of a condition, the inside of a string, the inside of a variable reference.  Strings hold
references and references hold neither, so the stack is at most three deep.  For each mode there is
a function that looks at what remains of the source and answers with a `Scan`: the token or the
error, how many characters are taken, and what happens to the stack.  `next` does the rest.

A *template* is a string without its quotes.  Its lexer starts inside a string, and the end of the
source ends it as long as no other mode is open.  NUL plays the part of the closing quote, so what
follows one is read as a condition.
-/

set_option autoImplicit false

namespace RequestCondition

/-! ## Errors -/

/-- What is wrong with the text of a token. -/
inductive LexCause where
  | badNumber (text : String) (error : DecimalError)
  | badEscape (c : Char)
  | openString
  | openRegex
  | openVariable
  | strangeCharacter (c : Char)
  | strangeInVariable (c : Char)
deriving DecidableEq

namespace LexCause

def message : LexCause → String
  | badNumber text e => "invalid number '" ++ text ++ "': " ++ e.message
  | badEscape c => "invalid escape sequence '\\" ++ c.toString ++ "'"
  | openString => "unterminated string literal"
  | openRegex => "unterminated regex literal"
  | openVariable => "unterminated variable reference"
  | strangeCharacter c => "unexpected character '" ++ c.toString ++ "'"
  | strangeInVariable c => "unexpected character '" ++ c.toString ++ "' in variable reference"

end LexCause

/-- A lexical error, and the byte offset it points at. -/
structure LexError where
  cause : LexCause
  offset : Nat
deriving DecidableEq

namespace LexError

def message (e : LexError) : String := e.cause.message

/-- The whole line that reports the error. -/
def display (e : LexError) : String := e.message ++ " at offset " ++ toString e.offset

end LexError

/-! ## Modes -/

/-- What surrounds the text at hand; a string and a reference remember where they start. -/
inductive Mode where
  | normal
  | string (quote : Char) (start : Nat)
  | reference (start : Nat)
deriving DecidableEq

/-- What reading a token does to the modes. -/
inductive Shift where
  | stay
  | enter (m : Mode)
  | leave
deriving DecidableEq

/-- Modes stand innermost first. -/
def Shift.apply : Shift → List Mode → List Mode
  | stay, ms => ms
  | enter m, ms => m :: ms
  | leave, ms => ms.tail

/-- The answer to what stands at a place: a token or an error, the characters taken, and what
happens to the modes. -/
structure Scan where
  outcome : Except LexError Token
  taken : Nat
  shift : Shift := .stay

namespace Scan

/-! ## Pieces that several modes share -/

/-- A regex literal whose first `opening` characters have been looked at. -/
def regex (start opening : Nat) (delimiter : Char) (cs : List Char) : Scan :=
  match regexBody delimiter cs with
  | none => ⟨.error ⟨.openRegex, start⟩, opening + cs.length, .stay⟩
  | some (pattern, n) =>
    let flag := hasIgnoreCaseFlag (cs.drop (n + 1))
    ⟨.ok (.regex (String.ofList pattern) flag), opening + n + 1 + flag.toNat, .stay⟩

/-- A number behind an optional dash. -/
def number (start : Nat) (negative : Bool) (cs : List Char) : Scan :=
  let body := numberText false cs
  let text := String.ofList (if negative then '-' :: body else body)
  ⟨match Decimal.ofText text with
    | .ok n => .ok (.number n)
    | .error e => .error ⟨.badNumber text e, start⟩,
    negative.toNat + body.length, .stay⟩

/-! ## Conditions -/

/-- The tokens that are spelled with signs alone. -/
def sign? : List Char → Option (Token × Nat)
  | '(' :: _ => some (.lparen, 1)
  | ')' :: _ => some (.rparen, 1)
  | '\x7b' :: _ => some (.lbrace, 1)
  | '\x7d' :: _ => some (.rbrace, 1)
  | ',' :: _ => some (.comma, 1)
  | '.' :: _ => some (.dot, 1)
  | '&' :: '&' :: _ => some (.and, 2)
  | '|' :: '|' :: _ => some (.or, 2)
  | '=' :: '=' :: _ => some (.compare ⟨false, .equal⟩, 2)
  | '=' :: '~' :: _ => some (.isMatch, 2)
  | '=' :: _ => some (.compare ⟨false, .equal⟩, 1)
  | '!' :: '=' :: _ => some (.compare ⟨false, .notEqual⟩, 2)
  | '!' :: '~' :: _ => some (.isNoMatch, 2)
  | '!' :: _ => some (.not, 1)
  | '<' :: '=' :: _ => some (.compare ⟨false, .lessEqual⟩, 2)
  | '<' :: _ => some (.compare ⟨false, .less⟩, 1)
  | '>' :: '=' :: _ => some (.compare ⟨false, .greaterEqual⟩, 2)
  | '>' :: _ => some (.compare ⟨false, .greater⟩, 1)
  | _ => none

/-- The numeric comparison that a word spells, with a dash before it or without. -/
def numericWord? (word : String) : Option Token :=
  if word = "eq" then some (.compare ⟨true, .equal⟩)
  else if word = "ne" then some (.compare ⟨true, .notEqual⟩)
  else if word = "lt" then some (.compare ⟨true, .less⟩)
  else if word = "le" then some (.compare ⟨true, .lessEqual⟩)
  else if word = "gt" then some (.compare ⟨true, .greater⟩)
  else if word = "ge" then some (.compare ⟨true, .greaterEqual⟩)
  else none

/-- The token that a word spells. -/
def wordToken (word : String) : Token :=
  if word = "true" then .boolean true
  else if word = "false" then .boolean false
  else if word = "and" then .and
  else if word = "or" then .or
  else if word = "not" then .not
  else if word = "in" then .isIn
  else (numericWord? word).getD (.identifier word)

/-- The token that a dash and the word behind it spell. -/
def dashToken (word : List Char) : Token :=
  (numericWord? (String.ofList word)).getD
    (if word.length = 1 then .unaryOp (String.ofList ('-' :: word))
      else .binaryOp (String.ofList ('-' :: word)))

/-- The token at a place in a condition where no blank stands.  `regexAllowed` tells whether an `m`
may open a regex literal. -/
def normal (regexAllowed : Bool) (start : Nat) : List Char → Scan
  | [] => ⟨.ok .eof, 0, .stay⟩
  | c :: cs =>
    if c = '"' ∨ c = '\'' then ⟨.ok .strBegin, 1, .enter (.string c start)⟩
    else if c = '%' ∧ nextIs (· == '\x7b') cs then ⟨.ok .varBegin, 2, .enter (.reference start)⟩
    else if c = '$' ∧ nextIs isDigit cs then
      ⟨.ok (.backref ((cs.head?.bind digitValue?).getD 0)), 2, .stay⟩
    else if c = '/' then regex start 1 '/' cs
    else match sign? (c :: cs) with
    | some (t, n) => ⟨.ok t, n, .stay⟩
    | none =>
      if c = '-' ∧ nextIs isDigit cs then number start true cs
      else if c = '-' ∧ nextIs isWordStart cs then
        let word := cs.takeWhile isWordChar
        ⟨.ok (dashToken word), 1 + word.length, .stay⟩
      else if c = 'm' ∧ regexAllowed ∧ nextIs regexDelimiters.contains cs then
        regex start 2 (cs.headD '/') cs.tail
      else if isWordStart c then
        let word := (c :: cs).takeWhile isWordChar
        ⟨.ok (wordToken (String.ofList word)), word.length, .stay⟩
      else if isDigit c then number start false (c :: cs)
      else ⟨.error ⟨.strangeCharacter c, start⟩, 0, .stay⟩

/-! ## Strings -/

/-- The token at a place inside a string that starts at `opened`. -/
def string (quote : Char) (opened start : Nat) : List Char → Scan
  | [] => ⟨.error ⟨.openString, opened⟩, 0, .stay⟩
  | c :: cs =>
    if c = quote then ⟨.ok .strEnd, 1, .leave⟩
    else if c = '%' ∧ nextIs (· == '\x7b') cs then ⟨.ok .varBegin, 2, .enter (.reference start)⟩
    else if c = '$' ∧ nextIs isDigit cs then
      ⟨.ok (.backref ((cs.head?.bind digitValue?).getD 0)), 2, .stay⟩
    else
      let run := stringText quote (c :: cs)
      match run.ending with
      | .done => ⟨.ok (.strText (String.ofList run.text)), run.taken, .stay⟩
      | .cutOff => ⟨.error ⟨.openString, opened⟩, run.taken, .stay⟩
      | .badEscape e =>
        let before := (c :: cs).take (run.taken - 1)
        ⟨.error ⟨.badEscape e, start + utf8Length before⟩, run.taken, .stay⟩

/-! ## Variable references -/

/-- The token at a place inside a reference that starts at `opened`, where no blank stands. -/
def reference (opened start : Nat) : List Char → Scan
  | [] => ⟨.error ⟨.openVariable, opened⟩, 0, .stay⟩
  | c :: cs =>
    if c = '\x7d' then ⟨.ok .varEnd, 1, .leave⟩
    else if c = ':' then
      let arg := cs.takeWhile (· != '\x7d')
      if arg.length < cs.length then ⟨.ok (.varArg (String.ofList arg)), 1 + arg.length, .stay⟩
      else ⟨.error ⟨.openVariable, opened⟩, 1 + cs.length, .stay⟩
    else if isWordChar c then
      let word := (c :: cs).takeWhile isWordChar
      ⟨.ok (.identifier (String.ofList word)), word.length, .stay⟩
    else ⟨.error ⟨.strangeInVariable c, start⟩, 0, .stay⟩

end Scan

/-! ## Reading tokens -/

/-- What a lexer knows between two tokens. -/
structure Lexer where
  cursor : Cursor
  /-- Where the token read last starts. -/
  tokenStart : Nat
  /-- The open modes, innermost first. -/
  modes : List Mode
  template : Bool
  /-- Whether an `m` may open a regex literal here. -/
  regexAllowed : Bool
deriving DecidableEq

namespace Lexer

/-- Reads a condition. -/
def condition (source : String) : Lexer := ⟨Cursor.ofText source, 0, [.normal], false, false⟩

/-- Reads a template. -/
def ofTemplate (source : String) : Lexer :=
  ⟨Cursor.ofText source, 0, [.string '\x00' 0], true, false⟩

/-- The innermost mode. -/
def mode (l : Lexer) : Mode := l.modes.headD .normal

/-- Whether a template ends here: nothing is left and only its own string is open. -/
def atTemplateEnd (l : Lexer) : Bool :=
  l.template && l.modes.length == 1 && l.cursor.rest.isEmpty

/-- Where the next token starts: blanks are text in strings and stand between tokens elsewhere. -/
def start (l : Lexer) : Cursor :=
  match l.mode with
  | .string _ _ => l.cursor
  | _ => l.cursor.skipBlanks

/-- What stands where the next token starts. -/
def scan (l : Lexer) : Scan :=
  match l.mode with
  | .normal => Scan.normal l.regexAllowed l.start.offset l.start.rest
  | .string quote opened => Scan.string quote opened l.start.offset l.start.rest
  | .reference opened => Scan.reference opened l.start.offset l.start.rest

/-- Whether a regex literal may come next.  In a condition the token decides, and an error changes
nothing; elsewhere none may. -/
def regexAllowedAfter (l : Lexer) : Except LexError Token → Bool
  | outcome =>
    match l.mode with
    | .normal =>
      match outcome with
      | .ok t => t.allowsRegex
      | .error _ => l.regexAllowed
    | _ => false

/-- Reads a token. -/
def next (l : Lexer) : Except LexError Token × Lexer :=
  if l.atTemplateEnd then (.ok .eof, { l with tokenStart := l.cursor.offset })
  else
    let s := l.scan
    (s.outcome,
      { l with
        cursor := l.start.past s.taken
        tokenStart := l.start.offset
        modes := s.shift.apply l.modes
        regexAllowed := l.regexAllowedAfter s.outcome })

end Lexer

end RequestCondition

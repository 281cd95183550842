import RequestCondition.Lexer.Stream
import RequestCondition.Parser.Error
import RequestCondition.Regex.Basic

/-!
# The state of a parser

A parser looks at one token at a time.  Its state outlives a failure: the tokens that have been
read stay read, and constructs that were open when an error was found stay counted, so that a
parser which is used again goes on from there.

`ParserM` is the monad of parsing steps.  The grammar is made of steps that look (`peek`, `check`),
that move (`advance`, `discard`, `expect`) and that fail (`unexpected`, `failWith`), and of two loops
over them, `chain` and `items`.
-/

set_option autoImplicit false

namespace RequestCondition

/-- How many negations, groups and argument lists may be open at once. -/
def maxNestingDepth : Nat := 128

/-- What the caller decides about the reading of a source. -/
structure ParseOptions where
  /-- Every regex literal is read as if it had the `i` flag. -/
  ignoreCase : Bool := false
  /-- What decides whether a regex literal can be used. -/
  engine : Regex.Engine := .standard

/-- A parser between two steps. -/
structure Parser where
  lexemes : LexemeStream
  /-- The token looked at. -/
  current : Token
  /-- The byte offset where it starts. -/
  offset : Nat
  /-- The negations, groups and argument lists counted as open. -/
  depth : Nat
  options : ParseOptions

/-- A parsing step: it changes the state whether it succeeds or fails. -/
abbrev ParserM := EStateM ParseError Parser

namespace Parser

/-- A parser at the first token of a lexer. -/
def ofLexer (l : Lexer) (options : ParseOptions) : Except ParseError Parser :=
  let (x, s) := l.stream.next
  match x.outcome with
  | .ok t => .ok ⟨s, t, x.start, 0, options⟩
  | .error e => .error (.ofLexError e)

/-- A bound on the tokens still to come. -/
def fuel (p : Parser) : Nat := p.lexemes.ahead.length + 2

/-! ## Steps -/

/-- Looks at the current token. -/
def peek : ParserM Token := fun p ↦ .ok p.current p

/-- Whether the current token passes a test. -/
def check (test : Token → Bool) : ParserM Bool := fun p ↦ .ok (test p.current) p

/-- Fails at the current token. -/
def failWith {α : Type} (cause : ParseCause) : ParserM α := fun p ↦ .error ⟨cause, p.offset⟩ p

/-- Fails because of the current token. -/
def unexpected {α : Type} (expected : Expectation) : ParserM α :=
  fun p ↦ .error ⟨.unexpected expected p.current, p.offset⟩ p

/-- Moves on to the next token.  If that is malformed the current one stays. -/
def advance : ParserM Unit := fun p ↦
  match p.lexemes.next with
  | (⟨.ok t, start⟩, s) => .ok () { p with lexemes := s, current := t, offset := start }
  | (⟨.error e, _⟩, s) => .error (.ofLexError e) { p with lexemes := s }

/-- Moves past the current token for good: until the next one is read the source counts as used
up, and so it does afterwards if the next one is malformed. -/
def discard : ParserM Unit := fun p ↦ advance { p with current := .eof }

/-- Moves past a given token. -/
def expect (t : Token) : ParserM Unit := do
  if ← check (· == t) then advance else unexpected (.token t)

/-- Opens a construct that counts towards the nesting limit. -/
def enter : ParserM Unit := fun p ↦ .ok () { p with depth := p.depth + 1 }

/-- Closes a construct. -/
def leave : ParserM Unit := fun p ↦ .ok () { p with depth := p.depth - 1 }

/-! ## Repetition

The three loops of the grammar.  Every round takes a token, so the tokens to come bound the rounds;
the bound is taken from the state where the loop starts. -/

/-- More operands of an operator that associates to the left. -/
def moreOperands {α : Type} (isOp : Token → Bool) (join : α → α → α) (item : ParserM α) :
    Nat → α → ParserM α
  | 0, left => pure left
  | n + 1, left => do
    if ← check isOp then
      advance
      let right ← item
      moreOperands isOp join item n (join left right)
    else pure left

/-- Operands joined by an operator that associates to the left. -/
def chain {α : Type} (isOp : Token → Bool) (join : α → α → α) (item : ParserM α) : ParserM α := do
  let left ← item
  if ← check isOp then
    let p ← get
    moreOperands isOp join item p.fuel left
  else pure left

/-- More items of a list with a comma between each two, up to the token that closes it; a comma may
stand behind the last. -/
def moreItems {α : Type} (close : Token) (item : ParserM α) : Nat → ParserM (List α)
  | 0 => pure []
  | n + 1 => do
    if ← check (· == close) then pure []
    else
      let first ← item
      if ← check (· == close) then pure [first]
      else
        expect .comma
        let others ← moreItems close item n
        pure (first :: others)

/-- The items of a list and the token that closes it. -/
def items {α : Type} (close : Token) (item : ParserM α) : ParserM (List α) := do
  let p ← get
  let xs ← moreItems close item p.fuel
  expect close
  pure xs

end Parser

end RequestCondition

import RequestCondition.Lexer.Basic

/-!
# The stream of lexemes

A lexer does not look at what the parser does with its tokens, so everything it will ever say can
be listed once: the lexemes up to its first answer that repeats for ever, and that answer.  The
repeating answer is the end of the source, or an error at a character where no token starts and
that nothing moves past.

`LexemeStream.next` gives the lexemes one at a time and never runs dry.
-/

set_option autoImplicit false

namespace RequestCondition

/-- An answer of the lexer, and the byte offset where what it is about starts. -/
structure Lexeme where
  outcome : Except LexError Token
  start : Nat

/-- What a lexer says, one lexeme after another.  Once `ahead` is used up the last answer repeats:
the end of the source, or `fault`. -/
structure LexemeStream where
  ahead : List Lexeme
  fault : Option LexError
  finish : Nat

namespace LexemeStream

/-- The answer that repeats. -/
def last (s : LexemeStream) : Lexeme :=
  match s.fault with
  | none => ⟨.ok .eof, s.finish⟩
  | some e => ⟨.error e, s.finish⟩

/-- The next lexeme, and what follows it. -/
def next (s : LexemeStream) : Lexeme × LexemeStream :=
  match s.ahead with
  | [] => (s.last, s)
  | x :: xs => (x, { s with ahead := xs })

/-- A lexeme in front of a stream. -/
def push (x : Lexeme) (s : LexemeStream) : LexemeStream := { s with ahead := x :: s.ahead }

end LexemeStream

namespace Lexer

/-- The stream of a lexer that has at most `fuel` answers to give before one repeats. -/
def collect : Nat → Lexer → LexemeStream
  | 0, l => ⟨[], none, l.cursor.offset⟩
  | fuel + 1, l =>
    match l.next with
    | (.ok .eof, l') => ⟨[], none, l'.tokenStart⟩
    | (.ok t, l') => (collect fuel l').push ⟨.ok t, l'.tokenStart⟩
    | (.error e, l') =>
      if l'.cursor.offset = l.cursor.offset then ⟨[], some e, l'.tokenStart⟩
      else (collect fuel l').push ⟨.error e, l'.tokenStart⟩

/-- Everything the lexer will say.  Each answer that does not repeat takes a character at least, so
the characters that are left, and one, bound their number. -/
def stream (l : Lexer) : LexemeStream := l.collect (l.cursor.rest.length + 1)

end Lexer

end RequestCondition

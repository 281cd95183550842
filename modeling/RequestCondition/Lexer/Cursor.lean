import RequestCondition.Text.Blank
import RequestCondition.Text.Bytes

/-!
# A place in a source text

A `Cursor` holds what is still to be read, together with the number of bytes before it.  It only
moves forward, by `past`, so a lexer need say no more about a token than how many characters it
takes.
-/

set_option autoImplicit false

namespace RequestCondition

/-- What is still to be read of a source, and the byte offset where it starts. -/
structure Cursor where
  offset : Nat
  rest : List Char
deriving DecidableEq

namespace Cursor

/-- The start of a source. -/
def ofText (s : String) : Cursor := ⟨0, s.toList⟩

/-- The place `n` characters on, or the end. -/
def past (c : Cursor) (n : Nat) : Cursor :=
  ⟨c.offset + utf8Length (c.rest.take n), c.rest.drop n⟩

/-- The next place where no blank stands. -/
def skipBlanks (c : Cursor) : Cursor :=
  ⟨c.offset + utf8Length (c.rest.takeWhile isBlank), c.rest.dropWhile isBlank⟩

@[simp] theorem past_zero (c : Cursor) : c.past 0 = c := by
  simp [past]

theorem past_past (c : Cursor) (m n : Nat) : (c.past m).past n = c.past (m + n) := by
  simp [past, List.take_add, Nat.add_assoc]

/-- Moving on gives up no byte: the offset and the bytes to come add up to the same number. -/
theorem offset_add_utf8Length_past (c : Cursor) (n : Nat) :
    (c.past n).offset + utf8Length (c.past n).rest = c.offset + utf8Length c.rest := by
  have h := congrArg utf8Length (List.take_append_drop n c.rest)
  rw [utf8Length_append] at h
  simp only [past]
  omega

end Cursor

end RequestCondition

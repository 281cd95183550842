import RequestCondition.Unicode.Property

/-!
# Quoted texts

Messages and log records show a text between double quotes so that it stands on one line and hides
nothing.  Quotes and backslashes are escaped, four control characters have an escape of a letter or
a digit, and every other character that leaves no mark of its own is written as its code point in
hexadecimal.
-/

set_option autoImplicit false

namespace RequestCondition

/-- The escape that names a code point. -/
def codePointEscape (n : Nat) : List Char :=
  '\\' :: 'u' :: '\x7b' :: (Nat.toDigits 16 n ++ ['\x7d'])

/-- The form of a character inside quotes. -/
def quotedChar (c : Char) : List Char :=
  if c = '"' ∨ c = '\\' then ['\\', c]
  else if c = '\n' then ['\\', 'n']
  else if c = '\r' then ['\\', 'r']
  else if c = '\t' then ['\\', 't']
  else if c = '\x00' then ['\\', '0']
  else if isPrintable c then [c]
  else codePointEscape c.toNat

/-- The text between double quotes. -/
def quoted (s : String) : String :=
  "\"" ++ String.ofList (s.toList.flatMap quotedChar) ++ "\""

end RequestCondition

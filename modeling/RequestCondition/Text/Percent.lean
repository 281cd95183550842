import RequestCondition.Text.Bytes

/-!
# Percent coding

In a percent-coded text letters, digits and five signs stand for themselves; every other character
is written as its bytes, each as a percent sign and two hexadecimal digits.

Coding and decoding go over bytes.  `Percent.decode` turns every percent sign that has two digits
behind it, in either case, into a byte; all other bytes stand for themselves, also a percent sign
without its digits.  Whether there is one of those is for `Percent.lacksDigits` to say.  What comes
out of decoding are bytes, which need not be a text.
-/

set_option autoImplicit false

namespace RequestCondition

namespace Percent

/-- A character that stands for itself in coded texts. -/
def isPlain (c : Char) : Bool :=
  ('a' ≤ c && c ≤ 'z') || ('A' ≤ c && c ≤ 'Z') || ('0' ≤ c && c ≤ '9') || c == '-' || c == '_' ||
    c == '.' || c == '~' || c == '/'

/-- A hexadecimal digit in upper case. -/
def hexDigit (n : Nat) : Char :=
  if n < 10 then Char.ofNat ('0'.toNat + n) else Char.ofNat ('A'.toNat + (n - 10))

/-- The coded form of a byte: itself, or a percent sign and two digits. -/
def encodeByte (b : UInt8) : List Char :=
  let c := Char.ofNat b.toNat
  if isPlain c then [c] else ['%', hexDigit (b.toNat / 16), hexDigit (b.toNat % 16)]

/-- The coded form of a text. -/
def encode (s : String) : String := String.ofList ((utf8Bytes s.toList).flatMap encodeByte)

/-- The value of a hexadecimal digit in either case. -/
def hexValue? (c : Char) : Option Nat :=
  if '0' ≤ c ∧ c ≤ '9' then some (c.toNat - '0'.toNat)
  else if 'a' ≤ c ∧ c ≤ 'f' then some (c.toNat - 'a'.toNat + 10)
  else if 'A' ≤ c ∧ c ≤ 'F' then some (c.toNat - 'A'.toNat + 10)
  else none

/-- The value of a byte that is a hexadecimal digit. -/
def digit? (b : UInt8) : Option Nat := hexValue? (Char.ofNat b.toNat)

/-- The byte of the percent sign. -/
def sign : UInt8 := 0x25

/-- Whether two hexadecimal digits come next. -/
def startsWithDigits : List UInt8 → Bool
  | x :: y :: _ => (digit? x).isSome && (digit? y).isSome
  | _ => false

/-- Whether a percent sign stands somewhere without two digits behind it. -/
def lacksDigits : List UInt8 → Bool
  | [] => false
  | b :: bs => (b == sign && !startsWithDigits bs) || lacksDigits bs

/-- The bytes that a coded text stands for. -/
def decode : List UInt8 → List UInt8
  | b :: x :: y :: bs =>
    if b = sign then
      match digit? x, digit? y with
      | some m, some n => UInt8.ofNat (16 * m + n) :: decode bs
      | _, _ => b :: decode (x :: y :: bs)
    else b :: decode (x :: y :: bs)
  | b :: bs => b :: decode bs
  | [] => []

end Percent

/-- The text with a UTF-8 form. -/
def textOfBytes? (bytes : List UInt8) : Option String := String.fromUTF8? bytes.toByteArray

end RequestCondition

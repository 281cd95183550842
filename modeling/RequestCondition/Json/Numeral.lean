import RequestCondition.Decimal.Reader
import RequestCondition.Json.Basic

/-!
# Reading JSON numbers

A number starts with its whole part, which is zero or does not start with zero; a fraction and an
exponent may follow.

A number that is more than a whole number, or does not fit into 64 bits, is a double.  Its digits
are taken up to the first that would not fit into 64 bits (`Significand`), which leaves enough of
them; every digit of the whole part that is left out counts in the exponent.
-/

set_option autoImplicit false

namespace RequestCondition

/-- Why a text is not JSON. -/
inductive JsonError where
  /-- The text ends too early. -/
  | endOfInput
  | unexpectedCharacter
  | trailingCharacters
  | badEscape
  | controlCharacter
  | numberTooLarge
  | nestedTooDeeply
deriving DecidableEq

namespace JsonError

def message : JsonError → String
  | endOfInput => "unexpected end of input"
  | unexpectedCharacter => "unexpected character"
  | trailingCharacters => "trailing characters"
  | badEscape => "invalid escape"
  | controlCharacter => "control character in a string"
  | numberTooLarge => "number out of range"
  | nestedTooDeeply => "nested too deeply"

/-- Whether more text could mend it. -/
def isIncomplete (e : JsonError) : Bool := e == .endOfInput

end JsonError

/-- Digits as far as they are taken, and the power of ten that they are to be multiplied by. -/
structure Significand where
  digits : Nat
  exponent : Int
deriving DecidableEq

namespace Significand

/-- Whether there is room for another digit. -/
def fits (s : Significand) (d : Nat) : Bool := 10 * s.digits + d < JsonNumber.bound

/-- Takes the digits of the whole part. -/
def pushWhole (s : Significand) : List Nat → Significand
  | [] => s
  | d :: ds =>
    if s.fits d then pushWhole ⟨10 * s.digits + d, s.exponent⟩ ds
    else ⟨s.digits, s.exponent + (ds.length + 1)⟩

/-- Takes the digits of the fraction. -/
def pushFraction (s : Significand) : List Nat → Significand
  | [] => s
  | d :: ds =>
    if s.fits d then pushFraction ⟨10 * s.digits + d, s.exponent - 1⟩ ds else s

/-- The number with a sign. -/
def number (s : Significand) (negative : Bool) : Except JsonError JsonNumber :=
  match Double.ofScientific s.digits s.exponent with
  | some x => .ok (.double negative x)
  | none => .error .numberTooLarge

end Significand

namespace JsonNumber

/-- The digits at the front of a text, and what follows them. -/
def digits : List Char → List Nat × List Char
  | [] => ([], [])
  | c :: cs =>
    match digitValue? c with
    | some d => (d :: (digits cs).1, (digits cs).2)
    | none => ([], c :: cs)

/-- Digits where there has to be one. -/
def someDigits (cs : List Char) : Except JsonError (List Nat × List Char) :=
  match cs, digits cs with
  | [], _ => .error .endOfInput
  | _, ([], _) => .error .unexpectedCharacter
  | _, r => .ok r

/-- The whole part: more digits cannot follow a zero. -/
def whole (cs : List Char) : Except JsonError (List Nat × List Char) := do
  match ← someDigits cs with
  | (0 :: _ :: _, _) => .error .unexpectedCharacter
  | r => .ok r

/-- The sign of an exponent and what follows it. -/
def exponentSign : List Char → Bool × List Char
  | '-' :: cs => (true, cs)
  | '+' :: cs => (false, cs)
  | cs => (false, cs)

/-- The number that digits make. -/
def valueOf (ds : List Nat) : Nat := ds.foldl (fun n d ↦ 10 * n + d) 0

/-- The exponent, if there is one, and the number. -/
def readExponent (negative : Bool) (s : Significand) :
    List Char → Except JsonError (JsonNumber × List Char)
  | 'e' :: cs | 'E' :: cs => do
    let (down, cs) := exponentSign cs
    let (ds, cs) ← someDigits cs
    let e : Int := valueOf ds
    let n ← Significand.number ⟨s.digits, s.exponent + (if down then -e else e)⟩ negative
    pure (n, cs)
  | cs => do
    let n ← s.number negative
    pure (n, cs)

/-- Reads a number behind its sign. -/
def read (negative : Bool) (cs : List Char) : Except JsonError (JsonNumber × List Char) := do
  let (ds, cs) ← whole cs
  let s := Significand.pushWhole ⟨0, 0⟩ ds
  match cs with
  | '.' :: cs => do
    let (fs, cs) ← someDigits cs
    readExponent negative (s.pushFraction fs) cs
  | 'e' :: _ | 'E' :: _ => readExponent negative s cs
  | _ =>
    match ofDigits? negative (valueOf ds) with
    | some n => pure (n, cs)
    | none => readExponent negative s cs

end JsonNumber

end RequestCondition

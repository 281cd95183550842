import RequestCondition.Decimal.Basic

/-!
# Reading decimals

`Decimal.ofText` reads a number: a sign, digits with at most one point among them, and an optional
power of ten.  An underscore may stand anywhere after the first digit.

What does not fit is treated differently on the two sides of the point.

* A digit **before the point** that makes the coefficient too large is an error.
* A digit **after the point** that makes it too large, or that would be the 29th place, is the
  last one that counts: from five on it rounds the number up.  Behind it there may be more digits
  and separators, and nothing else.

Rounding up may itself reach the bound.  The last place is then given up as well, which is
impossible, and an error, where there is none.
-/

set_option autoImplicit false

namespace RequestCondition

/-- Why a text is not a number. -/
inductive DecimalError where
  | empty
  | noDigits
  | secondPoint
  | leadingSeparator
  | strangeCharacter
  | tooManyDigits
  | roundedTooLarge
  | scaleTooLarge (scale : Nat)
  | tooLarge
  | badExponent
deriving DecidableEq

namespace DecimalError

def message : DecimalError → String
  | empty => "Invalid decimal: empty"
  | noDigits => "Invalid decimal: no digits found"
  | secondPoint => "Invalid decimal: two decimal points"
  | leadingSeparator => "Invalid decimal: must start lead with a number"
  | strangeCharacter => "Invalid decimal: unknown character"
  | tooManyDigits => "Invalid decimal: overflow from too many digits"
  | roundedTooLarge => "Invalid decimal: overflow from mantissa after rounding"
  | scaleTooLarge s => "Scale exceeds the maximum precision allowed: " ++ toString s ++ " > 28"
  | tooLarge => "Number exceeds maximum value that can be represented."
  | badExponent => "Failed to parse"

end DecimalError

/-- The value of an ASCII digit. -/
def digitValue? (c : Char) : Option Nat :=
  if '0' ≤ c ∧ c ≤ '9' then some (c.toNat - '0'.toNat) else none

namespace Decimal

/-- A number without its sign, as far as it has been read. -/
structure Magnitude where
  digits : Nat
  scale : Nat
  digits_lt : digits < bound := by decide
  scale_le : scale ≤ 28 := by decide

namespace Magnitude

def zero : Magnitude := ⟨0, 0, Nat.zero_lt_succ _, Decimal.zero.scale_le⟩

/-- One more digit, if it fits. -/
def push? (m : Magnitude) (afterPoint : Bool) (d : Nat) : Option Magnitude :=
  if h : 10 * m.digits + d < bound ∧ m.scale + afterPoint.toNat ≤ 28 then
    some ⟨10 * m.digits + d, m.scale + afterPoint.toNat, h.1, h.2⟩
  else none

/-- Rounds by the first digit that does not fit. -/
def round (m : Magnitude) (d : Nat) : Except DecimalError Magnitude :=
  if d < 5 then .ok m
  else if h : m.digits + 1 < bound then .ok ⟨m.digits + 1, m.scale, h, m.scale_le⟩
  else if m.scale = 0 then .error .roundedTooLarge
  else .ok ⟨(m.digits + 5) / 10, m.scale - 1,
    by have := m.digits_lt; simp only [bound] at this ⊢; omega, by have := m.scale_le; omega⟩

/-- The number with a sign. -/
def signed (m : Magnitude) (negative : Bool) : Decimal :=
  ⟨if negative then -(m.digits : Int) else m.digits, m.scale,
    by have := m.digits_lt; split <;> simpa using this, m.scale_le⟩

/-- Goes to the end of the text behind the last digit that counts. -/
def skipTail : List Char → Except DecimalError Unit
  | [] => .ok ()
  | c :: cs =>
    if (digitValue? c).isSome || c == '_' then skipTail cs
    else .error (if c == '.' then .secondPoint else .strangeCharacter)

theorem skipTail_eq_ok_iff (cs : List Char) :
    skipTail cs = .ok () ↔ ∀ c ∈ cs, (digitValue? c).isSome ∨ c = '_' := by
  induction cs with
  | nil => simp [skipTail]
  | cons c cs ih =>
    rw [skipTail]
    split
    · next h => simpa [ih] using fun _ ↦ by simpa using h
    · next h => simpa using fun h' ↦ absurd (by simpa using h') h

/-- Reads digits, separators and a point to the end of the text.  `afterPoint` tells whether the
point has been seen, `started` whether a digit has. -/
def read (m : Magnitude) (afterPoint started : Bool) :
    List Char → Except DecimalError Magnitude
  | [] => if started then .ok m else .error .noDigits
  | c :: cs =>
    match digitValue? c with
    | some d =>
      match m.push? afterPoint d with
      | some m' => read m' afterPoint true cs
      | none =>
        if afterPoint then do
          skipTail cs
          m.round d
        else .error .tooManyDigits
    | none =>
      if afterPoint && m.scale == 28 && (c == '.' || c == '_') then do
        skipTail cs
        pure m
      else if c == '.' then
        if afterPoint then .error .secondPoint else read m true started cs
      else if c == '_' then
        if started then read m afterPoint true cs else .error .leadingSeparator
      else .error .strangeCharacter

end Magnitude

/-- Reads a number in plain notation. -/
def ofPlain : List Char → Except DecimalError Decimal
  | [] => .error .empty
  | '-' :: cs => (Magnitude.zero.read false false cs).map (·.signed true)
  | '+' :: cs => (Magnitude.zero.read false false cs).map (·.signed false)
  | cs => (Magnitude.zero.read false false cs).map (·.signed false)

/-! ## Powers of ten -/

/-- Reads a whole number below `2 ^ 32`: an optional plus sign and at least one digit. -/
def word32? (cs : List Char) : Option Nat :=
  let ds := if cs.head? = some '+' then cs.tail else cs
  if ds.isEmpty then none
  else (ds.foldlM (fun n c ↦ (digitValue? c).bind fun d ↦
    if 10 * n + d < 4294967296 then some (10 * n + d) else none) 0)

/-- Divides by a power of ten by moving the point to the left. -/
def shiftDown (d : Decimal) (e : Nat) : Except DecimalError Decimal :=
  if h : d.scale + e ≤ 28 then .ok ⟨d.coefficient, d.scale + e, d.coefficient_lt, h⟩
  else .error (.scaleTooLarge (d.scale + e))

/-- Multiplies by a power of ten.  The point moves to the right as far as there are places; beyond
them the coefficient grows, and the number is whole. -/
def shiftUp (d : Decimal) (e : Nat) : Except DecimalError Decimal :=
  if e ≤ d.scale then .ok ⟨d.coefficient, d.scale - e, d.coefficient_lt, by
    have := d.scale_le; omega⟩
  else if 28 < e then .error (.scaleTooLarge e)
  else
    let c := d.coefficient * powerOfTen (e - d.scale)
    if h : c.natAbs < bound then .ok ⟨c, 0, h, zero.scale_le⟩ else .error .tooLarge

/-- Reads a number whose power of ten stands behind the letter. -/
def ofScientific (base power : List Char) : Except DecimalError Decimal := do
  let d ← ofPlain base
  match power with
  | '-' :: ds =>
    match word32? ds with
    | some e => d.shiftDown e
    | none => .error .badExponent
  | ds =>
    match word32? ds with
    | some e => d.shiftUp e
    | none => .error .badExponent

/-- The letter between a number and its power of ten. -/
def isPowerMark (c : Char) : Bool := c == 'e' || c == 'E'

/-- Reads a number. -/
def ofText (s : String) : Except DecimalError Decimal :=
  let cs := s.toList
  if cs.any isPowerMark then
    ofScientific (cs.takeWhile (!isPowerMark ·)) (cs.dropWhile (!isPowerMark ·)).tail
  else ofPlain cs

end Decimal

end RequestCondition

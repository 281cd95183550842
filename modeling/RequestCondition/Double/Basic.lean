import RequestCondition.Decimal.Basic

/-!
# Double-precision numbers

A `Double` is a finite binary number of 53 bits, without its sign: a significand times a power of
two.  Numbers that do not fit are left out of the type, so the operations that may reach one answer
with an option.

All operations go through `Double.ofRatio`, which rounds a ratio of whole numbers to the nearest
double, and a half to the one with the even significand.  They are plain arithmetic on whole
numbers, so a statement about them can be evaluated and proved like any other.
-/

set_option autoImplicit false

namespace RequestCondition

/-- A ratio rounded to the nearest whole number; a half goes to the even neighbour. -/
def roundDiv (num den : Nat) : Nat :=
  let q := num / den
  let twice := 2 * (num % den)
  if twice < den then q else if den < twice then q + 1 else q + q % 2

/-- The first significand that has more than 53 bits. -/
def Double.bound : Nat := 9007199254740992

/-- A significand times a power of two. -/
structure Double where
  significand : Nat
  exponent : Int
  significand_lt : significand < Double.bound
  exponent_le : exponent ≤ 971
deriving DecidableEq

namespace Double

/-- The least exponent. -/
def minExponent : Int := -1074

def zero : Double := ⟨0, minExponent, by decide, by decide⟩

def isZero (x : Double) : Bool := x.significand == 0

/-- A ratio divided by a power of two, as a ratio. -/
def shift (num den : Nat) : Int → Nat × Nat
  | .ofNat e => (num, den <<< e)
  | .negSucc e => (num <<< (e + 1), den)

/-- The exponent of the double next to a ratio: the one that leaves a significand of 53 bits, or the
least one there is. -/
def exponentOf (num den : Nat) : Int :=
  let e := max ((Nat.log2 num : Int) - Nat.log2 den - 53) minExponent
  let (n, d) := shift num den e
  if n / d < bound then e else e + 1

/-- The double nearest to a ratio, unless the ratio is too large. -/
def ofRatio (num den : Nat) : Option Double :=
  let e := exponentOf num den
  let (n, d) := shift num den e
  let q := roundDiv n d
  let (q, e) := if q < bound then (q, e) else (q / 2, e + 1)
  if h : q < bound ∧ e ≤ 971 then some ⟨q, e, h.1, h.2⟩ else none

/-- The double nearest to a whole number. -/
def ofNat (n : Nat) : Option Double := ofRatio n 1

/-- A double as a ratio. -/
def ratio (x : Double) : Nat × Nat :=
  match x.exponent with
  | .ofNat e => (x.significand <<< e, 1)
  | .negSucc e => (x.significand, 1 <<< (e + 1))

/-- The rounded product. -/
def product (x y : Double) : Option Double :=
  ofRatio (x.ratio.1 * y.ratio.1) (x.ratio.2 * y.ratio.2)

/-- The rounded quotient by a number other than zero. -/
def quotient (x y : Double) : Option Double :=
  ofRatio (x.ratio.1 * y.ratio.2) (x.ratio.2 * y.ratio.1)

/-- The largest exponent of a power of ten that fits. -/
def maxTen : Nat := 308

/-- Rounds the product of a number and a power of ten in steps: first the number, then the power,
then their product or quotient.  Where the power is too small to fit, two quotients do; below that
everything is zero. -/
def ofScientific (digits : Nat) (exponent : Int) : Option Double := do
  let x ← ofNat digits
  match exponent with
  | .ofNat e =>
    if x.isZero then pure zero
    else if e ≤ maxTen then x.product (← ofNat (powerOfTen e)) else none
  | .negSucc e =>
    if e + 1 ≤ maxTen then x.quotient (← ofNat (powerOfTen (e + 1)))
    else
      let y ← x.quotient (← ofNat (powerOfTen maxTen))
      y.quotient (← ofNat (powerOfTen (min (e + 1 - maxTen) maxTen)))

end Double

end RequestCondition

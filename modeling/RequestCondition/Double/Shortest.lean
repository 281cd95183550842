import RequestCondition.Double.Basic

/-!
# The shortest text of a double

A double is written with the fewest digits that read back to it.  The numbers that round to a double
make up an interval around it (`Double.Span`), and a decimal reads back to the double if it lies in
that interval; its ends belong to it where the significand is even.

For one digit, then two, and so on, `Double.shortest` tries the two decimals of that many digits on
either side of the double.  The first one that reads back is taken, of two the nearer, and of two
equally near the one that ends in an even digit.  Seventeen digits are always enough.

Numbers whose first digit stands at one of the places from `10 ^ 15` to `10 ^ (-5)` are written
positionally, with a digit on either side of the point; all others with an exponent that always has
a sign.
-/

set_option autoImplicit false

namespace RequestCondition

/-- The number `digits * 10 ^ exponent`. -/
structure Scientific where
  digits : Nat
  exponent : Int
deriving DecidableEq

namespace Scientific

/-- A power of ten as a ratio. -/
def tenPower : Int → Nat × Nat
  | .ofNat e => (powerOfTen e, 1)
  | .negSucc e => (1, powerOfTen (e + 1))

/-- Without the zeros at the end; `steps` bounds their number. -/
def dropZeros : Nat → Scientific → Scientific
  | 0, s => s
  | steps + 1, s =>
    if s.digits % 10 = 0 ∧ s.digits ≠ 0 then dropZeros steps ⟨s.digits / 10, s.exponent + 1⟩ else s

end Scientific

namespace Double

/-- The interval of the numbers that round to a double, over a common denominator, with the double
itself. -/
structure Span where
  low : Nat
  value : Nat
  high : Nat
  den : Nat
  /-- Whether the ends belong to it. -/
  closed : Bool

/-- The interval around a double.  Below a power of two the neighbour is half as far away. -/
def span (x : Double) : Span :=
  let below := if 2 * x.significand = bound ∧ minExponent < x.exponent then 1 else 2
  let (n, d) := match x.exponent - 2 with
    | .ofNat e => (1 <<< e, 1)
    | .negSucc e => (1, 1 <<< (e + 1))
  ⟨(4 * x.significand - below) * n, 4 * x.significand * n, (4 * x.significand + 2) * n, d,
    x.significand % 2 == 0⟩

namespace Span

/-- Whether a decimal reads back. -/
def contains (s : Span) (x : Scientific) : Bool :=
  let (n, d) := Scientific.tenPower x.exponent
  let left := x.digits * n * s.den
  if s.closed then s.low * d ≤ left && left ≤ s.high * d else s.low * d < left && left < s.high * d

/-- The place of the first digit, searched for upwards from a lower bound. -/
def leadingPlace (s : Span) : Nat → Int → Int
  | 0, k => k
  | steps + 1, k =>
    let (n, d) := Scientific.tenPower (k + 1)
    if n * s.den ≤ s.value * d then leadingPlace s steps (k + 1) else k

/-- The decimal to take among the two neighbours at a place, if one reads back. -/
def choose? (s : Span) (place : Int) : Option Scientific :=
  let (n, d) := Scientific.tenPower place
  let num := s.value * d
  let den := s.den * n
  let lower : Scientific := ⟨num / den, place⟩
  let upper : Scientific := ⟨num / den + 1, place⟩
  match s.contains lower && num / den != 0, s.contains upper with
  | false, false => none
  | true, false => some lower
  | false, true => some upper
  | true, true => some ⟨roundDiv num den, place⟩

/-- The first decimal that reads back, among those of so many digits and more. -/
def search (s : Span) (leading : Int) : Nat → Nat → Scientific
  | 0, digits => (s.choose? (leading - digits + 1)).getD ⟨0, 0⟩
  | steps + 1, digits =>
    match s.choose? (leading - digits + 1) with
    | some x => x
    | none => search s leading steps (digits + 1)

end Span

/-- A lower bound of the place of the first digit: a bit is worth at least three tenths of a digit,
and less than a third. -/
def placeBound (x : Double) : Int :=
  let bits : Int := Nat.log2 x.significand + x.exponent
  if 0 ≤ bits then bits * 3 / 10 else bits / 3 - 1

/-- The shortest decimal of a double other than zero. -/
def shortest (x : Double) : Scientific :=
  let leading := x.span.leadingPlace 60 x.placeBound
  (x.span.search leading 16 1).dropZeros 17

/-! ## Text -/

/-- The digits of a number. -/
def digitsOf (n : Nat) : List Char := Nat.toDigits 10 n

/-- Digits with a point behind so many of them, and at least one behind the point. -/
def positional (ds : List Char) (places : Int) : List Char :=
  match places with
  | .ofNat p =>
    if ds.length ≤ p then ds ++ List.replicate (p - ds.length) '0' ++ ['.', '0']
    else if p = 0 then '0' :: '.' :: ds
    else ds.take p ++ '.' :: ds.drop p
  | .negSucc p => '0' :: '.' :: (List.replicate (p + 1) '0' ++ ds)

/-- Digits with a point behind the first one, and an exponent. -/
def withExponent (ds : List Char) (leading : Int) : List Char :=
  let front := match ds with
    | [] => []
    | [d] => [d]
    | d :: more => d :: '.' :: more
  front ++ 'e' :: (if leading < 0 then '-' else '+') :: digitsOf leading.natAbs

/-- The text of a double. -/
def text (x : Double) : String :=
  if x.isZero then "0.0"
  else
    let s := x.shortest
    let ds := digitsOf s.digits
    let leading := s.exponent + ds.length - 1
    String.ofList
      (if -5 ≤ leading ∧ leading ≤ 15 then positional ds (leading + 1)
        else withExponent ds leading)

end Double

end RequestCondition

/-!
# Decimals

A number is a whole coefficient over a power of ten.  The coefficient has at most 96 bits and the
power, the *scale*, is at most 28; both bounds are fields of the type, so every function that
builds a number has to keep them.  The sign is the sign of the coefficient, and so there is no
negative zero.

The scale is part of a number: `1.50` and `1.5` are two numbers of one value.  `toText` keeps it,
`normalize` takes the smallest one, and `compare` looks at the values only.
-/

set_option autoImplicit false

namespace RequestCondition

/-- The first whole number that is too large for a coefficient: two to the power of 96. -/
def Decimal.bound : Nat := 79228162514264337593543950336

/-- A power of ten. -/
def powerOfTen (n : Nat) : Nat := Nat.pow 10 n

/-- A decimal number: the coefficient over a power of ten, the scale. -/
structure Decimal where
  coefficient : Int
  scale : Nat
  coefficient_lt : coefficient.natAbs < Decimal.bound := by decide
  scale_le : scale ≤ 28 := by decide
deriving DecidableEq

namespace Decimal

@[ext] theorem ext {a b : Decimal} (hc : a.coefficient = b.coefficient) (hs : a.scale = b.scale) :
    a = b := by
  cases a; cases b; cases hc; cases hs; rfl

def zero : Decimal := ⟨0, 0, by decide, by decide⟩

/-- The largest number. -/
def max : Decimal := ⟨79228162514264337593543950335, 0, by decide, by decide⟩

/-- The smallest number. -/
def min : Decimal := ⟨-79228162514264337593543950335, 0, by decide, by decide⟩

instance : Inhabited Decimal := ⟨zero⟩

/-- A whole number; from the bound on, the largest there is. -/
def ofNat (n : Nat) : Decimal :=
  if h : n < bound then ⟨n, 0, by simpa using h, by decide⟩ else max

def isZero (d : Decimal) : Bool := d.coefficient == 0

/-! ## Order -/

/-- The order of the values, whatever the scales. -/
def cmp (a b : Decimal) : Ordering :=
  compare (a.coefficient * powerOfTen b.scale) (b.coefficient * powerOfTen a.scale)

/-- Two numbers of one value. -/
def sameValue (a b : Decimal) : Bool := cmp a b == .eq

/-! ## The smallest scale -/

/-- Takes trailing zeros off a coefficient, at most as many as there are places. -/
def dropZeros : Nat → Int → Int × Nat
  | 0, c => (c, 0)
  | s + 1, c => if c % 10 = 0 then dropZeros s (c / 10) else (c, s + 1)

theorem dropZeros_natAbs_le (s : Nat) (c : Int) : (dropZeros s c).1.natAbs ≤ c.natAbs := by
  induction s generalizing c with
  | zero => exact Nat.le_refl _
  | succ s ih =>
    rw [dropZeros]
    split
    · have := ih (c / 10); omega
    · exact Nat.le_refl _

theorem dropZeros_scale_le (s : Nat) (c : Int) : (dropZeros s c).2 ≤ s := by
  induction s generalizing c with
  | zero => exact Nat.le_refl _
  | succ s ih =>
    rw [dropZeros]
    split
    · have := ih (c / 10); omega
    · exact Nat.le_refl _

/-- The same value at the smallest scale. -/
def normalize (d : Decimal) : Decimal :=
  ⟨(dropZeros d.scale d.coefficient).1, (dropZeros d.scale d.coefficient).2,
    Nat.lt_of_le_of_lt (dropZeros_natAbs_le _ _) d.coefficient_lt,
    Nat.le_trans (dropZeros_scale_le _ _) d.scale_le⟩

/-! ## Text -/

/-- The decimal digits of a number, padded with zeros on the left to at least `width`. -/
def digits (width n : Nat) : List Char :=
  let ds := Nat.toDigits 10 n
  List.replicate (width - ds.length) '0' ++ ds

/-- Plain notation: a digit at least before the point, and exactly `scale` digits after it. -/
def toText (d : Decimal) : String :=
  let ds := digits (d.scale + 1) d.coefficient.natAbs
  let whole := ds.take (ds.length - d.scale)
  let fraction := ds.drop (ds.length - d.scale)
  String.ofList ((if d.coefficient < 0 then ['-'] else []) ++ whole ++
    (if d.scale = 0 then [] else '.' :: fraction))

end Decimal

end RequestCondition

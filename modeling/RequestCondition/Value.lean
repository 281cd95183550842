import RequestCondition.Decimal.Reader
import RequestCondition.Text.Blank
import RequestCondition.Text.Quoted

/-!
# Values

An evaluation yields a truth value, a number or a text, and every operator takes every value: it
looks at the *truth* of a value, at its *text*, or at its *number*.

The number of a text is lenient.  A text that cannot be read counts as zero, unless it is plain
notation whose whole part is simply too long; then it counts as the largest or the smallest number
there is.  Either way there is a warning, which `toNumber` returns beside the number.
-/

set_option autoImplicit false

namespace RequestCondition

/-- The levels of log records. -/
inductive LogLevel where
  | trace
  | warn
deriving DecidableEq

/-- A line of the log. -/
structure LogRecord where
  level : LogLevel
  message : String
deriving DecidableEq

/-- The outcome of evaluating. -/
inductive Value where
  | boolean (b : Bool)
  | number (n : Decimal)
  | string (s : String)
deriving DecidableEq

instance : Inhabited Value := ⟨.string ""⟩

/-- A text as a number is asked for, and what there is to warn about. -/
inductive Reading where
  | exact (n : Decimal)
  | clamped (n : Decimal)
  | nothing
deriving DecidableEq

namespace Reading

/-- Whether a text is digits with an optional sign and an optional fraction, and its whole part has
more significant digits than every number has. -/
def isOversized (cs : List Char) : Bool :=
  let unsigned := if cs.head? = some '-' ∨ cs.head? = some '+' then cs.tail else cs
  let whole := unsigned.takeWhile (· != '.')
  let fraction := (unsigned.dropWhile (· != '.')).tail
  !whole.isEmpty && whole.all (digitValue? · |>.isSome) && fraction.all (digitValue? · |>.isSome) &&
    28 < (whole.dropWhile (· == '0')).length

/-- Reads a text as a number. -/
def ofText (s : String) : Reading :=
  let cs := trimBlanks s.toList
  if cs.isEmpty then .exact .zero
  else
    match Decimal.ofText (String.ofList cs) with
    | .ok n => .exact n
    | .error _ =>
      if isOversized cs then .clamped (if cs.head? = some '-' then .min else .max) else .nothing

/-- The number that a text counts as. -/
def number : Reading → Decimal
  | exact n => n
  | clamped n => n
  | nothing => .zero

/-- The warning about a text that was read as something else. -/
def warning? (s : String) : Reading → Option LogRecord
  | exact _ => none
  | clamped _ => some ⟨.warn, "numeric value " ++ quoted s ++ " out of range, clamping"⟩
  | nothing => some ⟨.warn,
      "non-numeric value " ++ quoted s ++ " used in numeric comparison, treating as 0"⟩

end Reading

namespace Value

/-- Whether a value counts as true. -/
def isTruthy : Value → Bool
  | boolean b => b
  | number n => !n.isZero
  | string s => s != ""

@[simp] theorem isTruthy_boolean (b : Bool) : (boolean b).isTruthy = b := rfl

/-- The text of a value; numbers are written at their smallest scale. -/
def text : Value → String
  | boolean b => if b then "true" else "false"
  | number n => n.normalize.toText
  | string s => s

@[simp] theorem text_string (s : String) : (string s).text = s := rfl

/-- The number of a value. -/
def toNumber : Value → Decimal
  | boolean b => if b then .ofNat 1 else .zero
  | number n => n
  | string s => (Reading.ofText s).number

/-- The warnings that come with the number of a value. -/
def numberWarnings : Value → List LogRecord
  | string s => ((Reading.ofText s).warning? s).toList
  | _ => []

/-- The name of a value's type. -/
def typeName : Value → String
  | boolean _ => "boolean"
  | number _ => "number"
  | string _ => "string"

/-- Values of one type that differ at most in the scale of a number. -/
def alike : Value → Value → Bool
  | boolean a, boolean b => a == b
  | number a, number b => a.sameValue b
  | string a, string b => a == b
  | _, _ => false

end Value

end RequestCondition

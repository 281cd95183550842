import RequestCondition.Double.Shortest
import RequestCondition.Text.Bytes

/-!
# JSON values

Variables come in as JSON and results go out as JSON.  A number is a whole number where it is
written as one and fits into 64 bits, and a double otherwise; zero with a sign is a double.

The members of an object stand in the order of their names, each name once.  `Json.insertMember`
keeps it that way, and of two members with one name the last one counts.
-/

set_option autoImplicit false

namespace RequestCondition

/-- A number in JSON. -/
inductive JsonNumber where
  | integer (n : Int)
  | double (negative : Bool) (magnitude : Double)
deriving DecidableEq

namespace JsonNumber

/-- The first whole number that does not fit into 64 bits. -/
def bound : Nat := 18446744073709551616

/-- A whole number with a sign, if it fits into 64 bits. -/
def ofDigits? (negative : Bool) (digits : Nat) : Option JsonNumber :=
  if negative then
    if 0 < digits ∧ 2 * digits ≤ bound then some (.integer (-(digits : Int))) else none
  else if digits < bound then some (.integer digits) else none

def text : JsonNumber → String
  | integer n => if n < 0 then "-" ++ toString n.natAbs else toString n.natAbs
  | double negative x => if negative then "-" ++ x.text else x.text

end JsonNumber

/-- A JSON value. -/
inductive Json where
  | null
  | boolean (b : Bool)
  | number (n : JsonNumber)
  | string (s : String)
  | array (items : List Json)
  | object (members : List (String × Json))

namespace Json

/-- Puts a member in the place of its name. -/
def insertMember (name : String) (value : Json) : List (String × Json) → List (String × Json)
  | [] => [(name, value)]
  | (other, w) :: rest =>
    match compareBytes name other with
    | .lt => (name, value) :: (other, w) :: rest
    | .eq => (name, value) :: rest
    | .gt => (other, w) :: insertMember name value rest

end Json

end RequestCondition

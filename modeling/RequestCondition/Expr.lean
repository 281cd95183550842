import RequestCondition.Token

/-!
# Trees

A condition is read into an `Expr`.  Numbers keep the scale they were written with, and regex
literals are kept as pattern and flag: a literal is known to compile when it stands in a tree that
the parser returned.

Two trees are *alike* (`Expr.alike`) when they differ at most in the scales of their numbers.  That
is the equality of trees which evaluation respects.
-/

set_option autoImplicit false

namespace RequestCondition

/-- A reference to a variable: its name, and what stands behind the colon if there is one. -/
structure VarRef where
  name : String
  args : List String
deriving DecidableEq

namespace VarRef

/-- The name and the arguments, joined by colons: the key that a variable is kept under. -/
def key (v : VarRef) : String := ":".intercalate (v.name :: v.args)

end VarRef

/-- A segment of a string. -/
inductive StringPart where
  | text (text : String)
  | variable (ref : VarRef)
  | backref (n : Nat)
deriving DecidableEq

/-- A regex literal. -/
structure RegexLiteral where
  pattern : String
  ignoreCase : Bool
deriving DecidableEq

inductive LogicalOp where
  | and
  | or
deriving DecidableEq

/-- A condition as a tree. -/
inductive Expr where
  | boolean (b : Bool)
  | number (n : Decimal)
  /-- A string, cut where a reference stands. -/
  | string (parts : List StringPart)
  | variable (ref : VarRef)
  | backref (n : Nat)
  | not (operand : Expr)
  | logical (op : LogicalOp) (left right : Expr)
  | comparison (op : CmpOp) (left right : Expr)
  /-- Whether a regex finds something in the subject, or, negated, finds nothing. -/
  | isMatch (negated : Bool) (subject : Expr) (regex : RegexLiteral)
  | isIn (needle : Expr) (list : List Expr)
  | concat (parts : List Expr)
  | call (name : String) (args : List Expr)
  | unaryTest (op : String) (operand : Expr)
  | binaryTest (op : String) (left right : Expr)

namespace Expr

/-- A string without references. -/
def text (s : String) : Expr := .string [.text s]

mutual

/-- Trees that differ at most in the scales of their numbers. -/
def alike : Expr → Expr → Bool
  | .boolean a, .boolean b => a == b
  | .number a, .number b => a.sameValue b
  | .string a, .string b => a == b
  | .variable a, .variable b => a == b
  | .backref a, .backref b => a == b
  | .not a, .not b => alike a b
  | .logical o a b, .logical o' a' b' => o == o' && alike a a' && alike b b'
  | .comparison o a b, .comparison o' a' b' => o == o' && alike a a' && alike b b'
  | .isMatch n a r, .isMatch n' a' r' => n == n' && alike a a' && r == r'
  | .isIn a as, .isIn b bs => alike a b && alikeAll as bs
  | .concat as, .concat bs => alikeAll as bs
  | .call f as, .call g bs => f == g && alikeAll as bs
  | .unaryTest o a, .unaryTest o' a' => o == o' && alike a a'
  | .binaryTest o a b, .binaryTest o' a' b' => o == o' && alike a a' && alike b b'
  | _, _ => false

/-- Lists of trees that are alike one by one. -/
def alikeAll : List Expr → List Expr → Bool
  | [], [] => true
  | a :: as, b :: bs => alike a b && alikeAll as bs
  | _, _ => false

end

end Expr

end RequestCondition

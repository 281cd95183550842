import RequestCondition.Decimal.Basic

/-!
# Tokens

The words of the condition language.  Comparison operators are one constructor over `CmpOp`, since
nothing but their spelling tells them apart before a tree is built.

`Token.describe` is what error messages call a token.
-/

set_option autoImplicit false

namespace RequestCondition

/-- The six ways to compare. -/
inductive Relation where
  | equal | notEqual | less | lessEqual | greater | greaterEqual
deriving DecidableEq

namespace Relation

/-- Whether an order of two things is what the relation asks for. -/
def holds : Relation → Ordering → Bool
  | equal, o => o == .eq
  | notEqual, o => o != .eq
  | less, o => o == .lt
  | lessEqual, o => o != .gt
  | greater, o => o == .gt
  | greaterEqual, o => o != .lt

/-- The relation that holds exactly when this one does not. -/
def complement : Relation → Relation
  | equal => notEqual
  | notEqual => equal
  | less => greaterEqual
  | lessEqual => greater
  | greater => lessEqual
  | greaterEqual => less

theorem holds_complement (r : Relation) (o : Ordering) : r.complement.holds o = !r.holds o := by
  cases r <;> cases o <;> rfl

end Relation

/-- A comparison operator: of the numbers that two values stand for, or of their texts. -/
structure CmpOp where
  numeric : Bool
  relation : Relation
deriving DecidableEq

namespace CmpOp

/-- The spelling that messages use. -/
def spelling : CmpOp → String
  | ⟨true, .equal⟩ => "-eq"
  | ⟨true, .notEqual⟩ => "-ne"
  | ⟨true, .less⟩ => "-lt"
  | ⟨true, .lessEqual⟩ => "-le"
  | ⟨true, .greater⟩ => "-gt"
  | ⟨true, .greaterEqual⟩ => "-ge"
  | ⟨false, .equal⟩ => "=="
  | ⟨false, .notEqual⟩ => "!="
  | ⟨false, .less⟩ => "<"
  | ⟨false, .lessEqual⟩ => "<="
  | ⟨false, .greater⟩ => ">"
  | ⟨false, .greaterEqual⟩ => ">="

end CmpOp

/-- A lexical token. -/
inductive Token where
  | boolean (b : Bool)
  | number (n : Decimal)
  | identifier (name : String)
  /-- The quote that opens a string. -/
  | strBegin
  /-- Text inside a string, its escapes resolved. -/
  | strText (text : String)
  /-- The quote that closes a string. -/
  | strEnd
  /-- The two characters that open a variable reference. -/
  | varBegin
  /-- What stands behind the colon of a variable reference. -/
  | varArg (arg : String)
  /-- The brace that closes a variable reference. -/
  | varEnd
  /-- A reference to a group of the last regex match. -/
  | backref (n : Nat)
  | regex (pattern : String) (ignoreCase : Bool)
  /-- A dash and one word character: a test of one operand. -/
  | unaryOp (op : String)
  /-- A dash and a longer word: a test of two operands. -/
  | binaryOp (op : String)
  | compare (op : CmpOp)
  | isMatch
  | isNoMatch
  | isIn
  | dot
  | and
  | or
  | not
  | lparen
  | rparen
  | lbrace
  | rbrace
  | comma
  | eof
deriving DecidableEq

namespace Token

/-- What messages call the token. -/
def describe : Token → String
  | boolean b => "'" ++ (if b then "true" else "false") ++ "'"
  | number n => "number " ++ n.toText
  | identifier name => "identifier '" ++ name ++ "'"
  | strBegin => "start of string"
  | strText _ => "string text"
  | strEnd => "end of string"
  | varBegin => "'%\x7b'"
  | varArg _ => "variable argument"
  | varEnd => "'\x7d'"
  | backref n => "'$" ++ toString n ++ "'"
  | regex pattern _ => "regex /" ++ pattern ++ "/"
  | unaryOp op => "operator '" ++ op ++ "'"
  | binaryOp op => "operator '" ++ op ++ "'"
  | compare op => "'" ++ op.spelling ++ "'"
  | isMatch => "'=~'"
  | isNoMatch => "'!~'"
  | isIn => "'in'"
  | dot => "'.'"
  | and => "'&&'"
  | or => "'||'"
  | not => "'!'"
  | lparen => "'('"
  | rparen => "')'"
  | lbrace => "'\x7b'"
  | rbrace => "'\x7d'"
  | comma => "','"
  | eof => "end of input"

/-- Whether a regex literal with a delimiter of its choice may follow the token. -/
def allowsRegex : Token → Bool
  | isMatch | isNoMatch | unaryOp _ => true
  | _ => false

end Token

end RequestCondition

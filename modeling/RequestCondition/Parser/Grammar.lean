import RequestCondition.Expr
import RequestCondition.Parser.State

/-!
# The grammar

From the loosest binding to the tightest: `||`, `&&`, `!`, one comparison, match, membership or
test, the concatenation `.`, and operands.

Three constructs nest without a bound on their own: a negation, a group, and the arguments of a
call.  What stands inside one of them is read by the grammar one level down, so `Parser.level n` is
the grammar with `n` levels below it, and recursion is on that number.  `Parser.around` describes
one level in terms of the one below; at the limit there is none, and opening a construct is an
error.  Everything else repeats by the loops of `ParserM`.

Errors leave the state as it was when they were found.  So operands take their first token for good
before they look at what follows, operators do not, and `nested` closes what it opened only if all
went well.
-/

set_option autoImplicit false

namespace RequestCondition

/-- What a construct that nests can have inside. -/
structure Grammar where
  expression : ParserM Expr
  negation : ParserM Expr
  concat : ParserM Expr

namespace Parser

/-- Counts as used up what is looked at. -/
def clear : ParserM Unit := fun p ↦ .ok () { p with current := .eof }

/-! ## References and strings -/

/-- A variable reference behind its opening: a name, an argument if there is a colon, the brace. -/
def variableBody : ParserM VarRef := do
  match ← peek with
  | .identifier name =>
    discard
    let args ← match ← peek with
      | .varArg arg => do advance; pure [arg]
      | _ => pure []
    expect .varEnd
    pure ⟨name, args⟩
  | _ => unexpected .variableName

/-- Parts of a string up to the token that closes it. -/
def moreParts (close : Token) (expected : Expectation) : Nat → ParserM (List StringPart)
  | 0 => pure []
  | n + 1 => do
    match ← peek with
    | .strText text =>
      discard
      let others ← moreParts close expected n
      pure (.text text :: others)
    | .backref k =>
      discard
      let others ← moreParts close expected n
      pure (.backref k :: others)
    | .varBegin =>
      discard
      let ref ← variableBody
      let others ← moreParts close expected n
      pure (.variable ref :: others)
    | t => if t == close then pure [] else unexpected expected

/-- A string behind its opening quote. -/
def stringBody : ParserM Expr := do
  let p ← get
  let parts ← moreParts .strEnd .stringPart p.fuel
  discard
  pure (.string parts)

/-- A template: a string that the end of the source closes. -/
def template : ParserM Expr := do
  let p ← get
  let parts ← moreParts .eof .templatePart p.fuel
  pure (.string parts)

/-- The regex literal at hand, if it compiles. -/
def regexLiteral : ParserM RegexLiteral := do
  let p ← get
  match p.current with
  | .regex pattern flag =>
    let ignoreCase := flag || p.options.ignoreCase
    if p.options.engine.compiles pattern ignoreCase then
      advance
      pure ⟨pattern, ignoreCase⟩
    else failWith (.badRegex pattern)
  | _ => unexpected .regexLiteral

/-! ## One level -/

/-- Reads the inside of a construct with the grammar one level down. -/
def nested {α : Type} (below : Option Grammar) (inside : Grammar → ParserM α) : ParserM α :=
  match below with
  | none => failWith .nestedTooDeeply
  | some g => do
    enter
    let a ← inside g
    leave
    pure a

/-- A literal, a reference, a call or a group. -/
def operand (below : Option Grammar) : ParserM Expr := do
  match ← peek with
  | .boolean b =>
    discard
    pure (.boolean b)
  | .number n =>
    discard
    pure (.number n)
  | .strBegin =>
    discard
    stringBody
  | .varBegin =>
    discard
    let ref ← variableBody
    pure (.variable ref)
  | .backref n =>
    discard
    pure (.backref n)
  | .identifier name =>
    discard
    if ← check (· == .lparen) then
      nested below fun g ↦ do
        advance
        let args ← items .rparen g.concat
        pure (.call name args)
    else pure (.text name)
  | .lparen =>
    clear
    nested below fun g ↦ do
      advance
      let e ← g.expression
      expect .rparen
      pure e
  | .regex _ _ => unexpected .noRegexLiteral
  | .eof => failWith .missingOperand
  | _ => unexpected .operand

/-- Operands joined by points; a single one stands for itself. -/
def concatenation (below : Option Grammar) : ParserM Expr := do
  let parts ← chain (· == .dot) (· ++ ·) ((operand below).map fun e ↦ [e])
  match parts with
  | [e] => pure e
  | es => pure (.concat es)

/-- The operator of a comparison, match, membership or test of two operands. -/
def isRelational : Token → Bool
  | .compare _ | .isMatch | .isNoMatch | .isIn | .binaryOp _ => true
  | _ => false

/-- What follows a left operand. -/
def relation (below : Option Grammar) (left : Expr) : ParserM Expr := do
  match ← peek with
  | .compare op =>
    advance
    let right ← concatenation below
    pure (.comparison op left right)
  | .isMatch =>
    advance
    let regex ← regexLiteral
    pure (.isMatch false left regex)
  | .isNoMatch =>
    advance
    let regex ← regexLiteral
    pure (.isMatch true left regex)
  | .isIn =>
    advance
    expect .lbrace
    let list ← items .rbrace (concatenation below)
    pure (.isIn left list)
  | .binaryOp op =>
    advance
    let right ← concatenation below
    pure (.binaryTest op left right)
  | _ => pure left

/-- The variable that holds the address of the client. -/
def clientAddress : Expr := .variable ⟨"REMOTE_ADDR", []⟩

/-- The operand of `-R`, a test of the client's address: against a regex literal by a match, and
against anything else as a network. -/
def clientTest (below : Option Grammar) : ParserM Expr := do
  match ← peek with
  | .regex _ _ =>
    let regex ← regexLiteral
    pure (.isMatch false clientAddress regex)
  | _ =>
    let network ← concatenation below
    pure (.binaryTest "-ipmatch" clientAddress network)

/-- A test of one operand, or an operand with at most one relation to another. -/
def comparison (below : Option Grammar) : ParserM Expr := do
  let e ← match ← peek with
    | .unaryOp op => do
      advance
      if op = "-R" then clientTest below
      else
        let e ← concatenation below
        pure (.unaryTest op e)
    | _ => do
      let left ← concatenation below
      relation below left
  if ← check isRelational then unexpected .noSecondComparison else pure e

/-- A comparison behind any number of negations. -/
def negation (below : Option Grammar) : ParserM Expr := do
  if ← check (· == .not) then
    nested below fun g ↦ do
      advance
      let e ← g.negation
      pure (.not e)
  else comparison below

def conjunction (below : Option Grammar) : ParserM Expr :=
  chain (· == .and) (.logical .and) (negation below)

def disjunction (below : Option Grammar) : ParserM Expr :=
  chain (· == .or) (.logical .or) (conjunction below)

/-- One level, in terms of the level below it. -/
def around (below : Option Grammar) : Grammar :=
  ⟨disjunction below, negation below, concatenation below⟩

/-- The grammar with `n` levels below it. -/
def level : Nat → Grammar
  | 0 => around none
  | n + 1 => around (some (level n))

/-! ## Whole sources -/

/-- An expression, wherever it ends. -/
def expression : ParserM Expr := do
  let p ← get
  (level (maxNestingDepth - p.depth)).expression

/-- An expression that is all there is. -/
def whole : ParserM Expr := do
  let e ← expression
  if ← check (· == .eof) then pure e else unexpected .endOfInput

end Parser

end RequestCondition

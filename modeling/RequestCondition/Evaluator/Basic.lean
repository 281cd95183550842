import RequestCondition.Evaluator.Walk
import RequestCondition.Expression
import RequestCondition.Function.Table

/-!
# Evaluating trees

A tree is evaluated in an `Environment`: what the host knows about variables, the table of functions
and the engine that searches with regexes.  The walk goes from left to right and asks for nothing
twice.  It skips the right side of a logical operator whose left side decides, and the elements of a
list behind the first that is equal; it stops at the first error.
-/

set_option autoImplicit false

namespace RequestCondition

/-- Whether one truth value decides a logical operation. -/
def LogicalOp.decidedBy : LogicalOp → Bool → Bool
  | and, b => !b
  | or, b => b

/-- Compares two values. -/
def CmpOp.holds (op : CmpOp) (v w : Value) : Bool :=
  op.relation.holds
    (if op.numeric then v.toNumber.cmp w.toNumber else compareBytes v.text w.text)

/-- What there is to warn about in a comparison. -/
def CmpOp.warnings (op : CmpOp) (v w : Value) : List LogRecord :=
  if op.numeric then v.numberWarnings ++ w.numberWarnings else []

/-- What a tree is evaluated in. -/
structure Environment where
  context : Context
  functions : FunctionTable
  /-- What makes the searches of matches. -/
  engine : Regex.Engine := .standard

namespace Environment

/-- Asks for a variable; one that is not known reads as the empty text. -/
def resolve (env : Environment) (ref : VarRef) : Walk Value := do
  Walk.tell [.lookup ref (env.context ref)]
  match env.context ref with
  | .resolved v => pure v
  | .unresolved => pure (.string "")
  | .refused reason => Walk.fail (.refusedLookup ref.name reason)

/-- Calls a function. -/
def call (env : Environment) (name : String) (args : List Value) : Walk Value :=
  let reply := env.functions.call name args
  Walk.answer name args reply.result reply.log

/-- Searches a text with a regex. -/
def search (env : Environment) (regex : RegexLiteral) (subject : String) : Walk Bool :=
  Walk.leave regex subject (env.engine.find? regex.pattern regex.ignoreCase subject)

/-- The texts of the parts of a string. -/
def evalParts (env : Environment) : List StringPart → Walk (List String)
  | [] => pure []
  | p :: ps => do
    let s ← match p with
      | .text t => pure t
      | .variable ref => do
        let v ← env.resolve ref
        pure v.text
      | .backref n => Walk.backref n
    let ss ← evalParts env ps
    pure (s :: ss)

mutual

/-- Evaluates a tree. -/
def eval (env : Environment) : Expr → Walk Value
  | .boolean b => pure (.boolean b)
  | .number n => pure (.number n)
  | .string parts => do
    let texts ← evalParts env parts
    pure (.string (String.join texts))
  | .variable ref => env.resolve ref
  | .backref n => do
    let s ← Walk.backref n
    pure (.string s)
  | .not operand => do
    let v ← eval env operand
    pure (.boolean !v.isTruthy)
  | .logical op left right => do
    let v ← eval env left
    if op.decidedBy v.isTruthy then pure (.boolean v.isTruthy)
    else
      let w ← eval env right
      pure (.boolean w.isTruthy)
  | .comparison op left right => do
    let v ← eval env left
    let w ← eval env right
    Walk.tell ((op.warnings v w).map .warning)
    pure (.boolean (op.holds v w))
  | .isMatch negated subject regex => do
    let v ← eval env subject
    let found ← env.search regex v.text
    pure (.boolean (found != negated))
  | .isIn needle list => do
    let v ← eval env needle
    let found ← evalIn env v.text list
    pure (.boolean found)
  | .concat parts => do
    let vs ← evalAll env parts
    pure (.string (String.join (vs.map Value.text)))
  | .call name args => do
    let vs ← evalAll env args
    env.call name vs
  | .unaryTest op operand => do
    let v ← eval env operand
    env.call op [v]
  | .binaryTest op left right => do
    let v ← eval env left
    let w ← eval env right
    env.call op [v, w]

/-- Evaluates trees one after another. -/
def evalAll (env : Environment) : List Expr → Walk (List Value)
  | [] => pure []
  | e :: es => do
    let v ← eval env e
    let vs ← evalAll env es
    pure (v :: vs)

/-- Evaluates trees up to the first whose text is the one looked for. -/
def evalIn (env : Environment) (needle : String) : List Expr → Walk Bool
  | [] => pure false
  | e :: es => do
    let v ← eval env e
    if v.text == needle then pure true else evalIn env needle es

end

end Environment

namespace Expression

/-- Evaluates an expression on its own: no match has been made before. -/
def evaluate (x : Expression) (env : Environment) : Outcome Value := env.eval x.root .none

end Expression

end RequestCondition

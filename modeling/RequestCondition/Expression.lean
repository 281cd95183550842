import RequestCondition.Parser.Grammar

/-!
# Expressions

An `Expression` is a source text with the tree that it was read into.  There are two kinds: a
*condition* is read by the whole grammar, and a *template* is text with references in it.
-/

set_option autoImplicit false

namespace RequestCondition

inductive ExpressionKind where
  | condition
  | template
deriving DecidableEq

/-- A source text and its tree. -/
structure Expression where
  source : String
  kind : ExpressionKind
  root : Expr

namespace Expression

/-- Reads a condition. -/
def parse (source : String) (options : ParseOptions := {}) : Except ParseError Expression :=
  match Parser.ofLexer (.condition source) options with
  | .error e => .error e
  | .ok p =>
    match Parser.whole p with
    | .ok root _ => .ok ⟨source, .condition, root⟩
    | .error e _ => .error e

/-- Reads a template.  No regex stands in one, so the options do not matter. -/
def parseTemplate (source : String) : Except ParseError Expression :=
  match Parser.ofLexer (.ofTemplate source) {} with
  | .error e => .error e
  | .ok p =>
    match Parser.template p with
    | .ok root _ => .ok ⟨source, .template, root⟩
    | .error e _ => .error e

/-- Expressions of one source and kind whose trees are alike. -/
def alike (a b : Expression) : Bool :=
  a.source == b.source && a.kind == b.kind && a.root.alike b.root

end Expression

end RequestCondition

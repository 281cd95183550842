/-!
# Regex patterns

A `Pattern` is a regex as it is written, before flags are taken into account.  Flags can be set in
the middle of a pattern, and what a dot, a class or a letter means depends on them, so meaning is
given by a walk from left to right and a pattern keeps the places where flags change.

`Pattern.depth` counts the constructs around the innermost piece; a pattern that is nested too
deeply is refused.
-/

set_option autoImplicit false

namespace RequestCondition

namespace Regex

/-- What can be switched on and off in a pattern. -/
inductive Flag where
  | ignoreCase
  | multiLine
  | dotAll
  | swapGreed
  | unicode
  | crlf
  | extended
deriving DecidableEq

/-- Flags with their new states, in the order they are written. -/
abbrev FlagSettings := List (Flag × Bool)

/-- A character of a pattern.  One that is written as a byte of two digits stands for that byte
where characters are not read as Unicode. -/
structure Literal where
  char : Char
  isByte : Bool := false
deriving DecidableEq

/-- The sets that have a letter of their own. -/
inductive LetterClass where
  | digit
  | space
  | word
deriving DecidableEq

/-- The sets that are named between colons inside brackets; they are ASCII. -/
inductive NamedClass where
  | alnum | alpha | ascii | blank | cntrl | digit | graph | lower | print | punct | space | upper
  | word | xdigit
deriving DecidableEq

/-- The ways to ask for a property. -/
inductive PropertyQuery where
  | name (name : String)
  | value (property value : String)
deriving DecidableEq

inductive ClassOp where
  | intersection
  | difference
  | symmetricDifference
deriving DecidableEq

/-- What stands between brackets. -/
inductive ClassSet where
  | empty
  | literal (l : Literal)
  | range (lo hi : Literal)
  | named (c : NamedClass) (negated : Bool)
  | letter (c : LetterClass) (negated : Bool)
  | property (q : PropertyQuery) (negated : Bool)
  | bracketed (negated : Bool) (inside : ClassSet)
  | union (items : List ClassSet)
  | operation (op : ClassOp) (left right : ClassSet)

/-- A condition on the place between two characters. -/
inductive Assertion where
  | lineStart
  | lineEnd
  | textStart
  | textEnd
  | wordBoundary
  | notWordBoundary
  | wordStart
  | wordEnd
  | wordStartHalf
  | wordEndHalf
deriving DecidableEq

inductive GroupKind where
  /-- A group whose text is kept under a number. -/
  | capture (index : Nat)
  /-- A group that sets flags for its inside. -/
  | plain (flags : FlagSettings)
deriving DecidableEq

/-- A regex as it is written. -/
inductive Pattern where
  | empty
  | flags (settings : FlagSettings)
  | literal (l : Literal)
  | dot
  | assertion (a : Assertion)
  | letter (c : LetterClass) (negated : Bool)
  | property (q : PropertyQuery) (negated : Bool)
  | bracketed (negated : Bool) (inside : ClassSet)
  | repetition (min : Nat) (max : Option Nat) (greedy : Bool) (p : Pattern)
  | group (kind : GroupKind) (inside : Pattern)
  | alternation (ps : List Pattern)
  | concat (ps : List Pattern)

/-! ## Nesting -/

mutual

/-- How deeply what stands between brackets is nested. -/
def ClassSet.depth : ClassSet → Nat
  | .bracketed _ s => s.depth + 1
  | .union items => ClassSet.depthAll items + 1
  | .operation _ l r => max l.depth r.depth + 1
  | _ => 0

def ClassSet.depthAll : List ClassSet → Nat
  | [] => 0
  | s :: ss => max s.depth (ClassSet.depthAll ss)

end

mutual

/-- How deeply a pattern is nested. -/
def Pattern.depth : Pattern → Nat
  | .bracketed _ s => s.depth + 1
  | .repetition _ _ _ p => p.depth + 1
  | .group _ p => p.depth + 1
  | .alternation ps => Pattern.depthAll ps + 1
  | .concat ps => Pattern.depthAll ps + 1
  | _ => 0

def Pattern.depthAll : List Pattern → Nat
  | [] => 0
  | p :: ps => max p.depth (Pattern.depthAll ps)

end

/-- The deepest nesting that is accepted. -/
def maxPatternDepth : Nat := 250

namespace Pattern

/-- Alternatives as one pattern; a single one stands for itself. -/
def ofAlternatives : List Pattern → Pattern
  | [] => .empty
  | [p] => p
  | ps => .alternation ps

/-- Pieces in a row as one pattern; a single one stands for itself. -/
def ofPieces : List Pattern → Pattern
  | [] => .empty
  | [p] => p
  | ps => .concat ps

end Pattern

/-- Items of a class as one set; a single one stands for itself. -/
def ClassSet.ofItems : List ClassSet → ClassSet
  | [] => .empty
  | [s] => s
  | ss => .union ss

end Regex

end RequestCondition

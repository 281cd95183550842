import RequestCondition.Unicode.CharSet

/-!
# Nodes

A `Node` is a regex whose flags have been taken into account: every dot, letter and class has
become a set of characters, every assertion says what it looks at, and every repetition knows
whether it prefers more.

Nodes are built by `concat`, `alternation`, `repeated` and `ofSet`, which keep them in a form of
their own: rows in rows and choices in choices are made flat, characters in a row are one text, a
set of one character is that character, and a choice between single characters, or between sets, is
a set.

What `alternation` does can be seen from outside.  Branches that all are rows with the same pieces
at their front are read as these pieces, followed by a choice between what is left of them.  So
`.*?b|.*?a` is `.*?(?:b|a)`, which finds the text up to the first of the two letters, and not the
text up to the first `b`: the pieces in front are matched as they prefer, before it matters which
branch comes first.
-/

set_option autoImplicit false

namespace RequestCondition

namespace Regex

/-- What an assertion says about words. -/
inductive WordCondition where
  | boundary
  | noBoundary
  | start
  | finish
  | startHalf
  | endHalf
deriving DecidableEq

/-- A condition on the place between two characters. -/
inductive Look where
  | textStart
  | textEnd
  /-- The start of a line; `crlf` tells whether lines may end in a return and a feed. -/
  | lineStart (crlf : Bool)
  | lineEnd (crlf : Bool)
  | word (condition : WordCondition) (unicode : Bool)
deriving DecidableEq

/-- A regex without flags. -/
inductive Node where
  | empty
  /-- Characters in a row, at least one. -/
  | text (cs : List Char)
  /-- A character of a set.  Whether characters were read as Unicode where the set was written does
  not matter for what it matches, but sets that differ in it are not the same node. -/
  | set (unicode : Bool) (s : CharSet)
  | look (l : Look)
  | group (index : Nat) (n : Node)
  | seq (a b : Node)
  /-- The first alternative is preferred. -/
  | alt (a b : Node)
  | repetition (min : Nat) (max : Option Nat) (greedy : Bool) (n : Node)
deriving DecidableEq

namespace Node

/-! ## Rows -/

/-- The pieces of a row; a node that is no row is its only piece. -/
def pieces : Node → List Node
  | empty => []
  | seq a b => a :: b.pieces
  | n => [n]

/-- The row of some pieces. -/
def ofPieces : List Node → Node
  | [] => empty
  | [n] => n
  | n :: ns => seq n (ofPieces ns)

/-- Puts a piece in front of others; two texts become one. -/
def attach (n : Node) (ns : List Node) : List Node :=
  match n, ns with
  | text a, text b :: ns => text (a ++ b) :: ns
  | n, ns => n :: ns

/-- Nodes in a row. -/
def concat (ns : List Node) : Node := ofPieces ((ns.flatMap pieces).foldr attach [])

/-- Whether a node is a row of two pieces or more. -/
def isSeq : Node → Bool
  | seq _ _ => true
  | _ => false

/-! ## Sets -/

/-- A character of a set. -/
def ofSet (unicode : Bool) (s : CharSet) : Node :=
  match s.canonical with
  | ⟨[]⟩ => set false .empty
  | ⟨[lo, hi]⟩ => if hi = lo + 1 then text [Char.ofNat lo] else set unicode ⟨[lo, hi]⟩
  | s => set unicode s

/-- The code point of a node that is one character. -/
def code? : Node → Option Nat
  | text [c] => some c.toNat
  | _ => none

/-- The set of a node that is one. -/
def set? : Node → Option CharSet
  | set _ s => some s
  | _ => none

/-- The set that a choice comes to if its branches are single characters, or sets. -/
def setOfBranches? (bs : List Node) : Option CharSet :=
  ((bs.mapM code?).map CharSet.ofCodes).or ((bs.mapM set?).map CharSet.unions)

/-! ## Choices -/

/-- The branches of a choice; a node that is no choice is its only branch. -/
def branches : Node → List Node
  | alt a b => a :: b.branches
  | n => [n]

/-- The choice between some branches; there is nothing to choose where there are none. -/
def ofBranches : List Node → Node
  | [] => set false .empty
  | [n] => n
  | n :: ns => alt n (ofBranches ns)

/-- The nodes that two lists have in common at their front. -/
def agreeing : List Node → List Node → List Node
  | a :: as, b :: bs => if a = b then a :: agreeing as bs else []
  | _, _ => []

/-- The pieces that all branches have in common at their front, if all of them are rows. -/
def sharedPieces : List Node → List Node
  | b :: bs =>
    if b.isSeq && bs.all isSeq then bs.foldl (fun shared b ↦ agreeing shared b.pieces) b.pieces
    else []
  | [] => []

/-- A choice that does not look at the front of its branches. -/
def choice (bs : List Node) : Node :=
  match bs with
  | [b] => b
  | bs =>
    match setOfBranches? bs with
    | some s => ofSet true s
    | none => ofBranches bs

/-- A choice between nodes, the first preferred.  Once the shared pieces have been taken off, the
branches have nothing more in common, so there is no need to look again. -/
def alternation (ns : List Node) : Node :=
  let bs := ns.flatMap branches
  match sharedPieces bs with
  | [] => choice bs
  | shared =>
    let left := bs.map fun b ↦ concat (b.pieces.drop shared.length)
    concat (shared ++ [choice (left.flatMap branches)])

/-! ## Repetitions -/

/-- Whether a node matches nothing but the empty text. -/
def isNull : Node → Bool
  | empty => true
  | text _ => false
  | set _ _ => false
  | look _ => true
  | group _ n => n.isNull
  | seq a b => a.isNull && b.isNull
  | alt a b => a.isNull && b.isNull
  | repetition _ _ _ n => n.isNull

/-- A repetition.  Of what is empty one round is as good as many.  A repetition of exactly no times
is nothing at all; a group inside it is no group of the regex. -/
def repeated (min : Nat) (max : Option Nat) (greedy : Bool) (n : Node) : Node :=
  let min' := if n.isNull then Nat.min min 1 else min
  let max' := if n.isNull then some (Nat.min (max.getD 1) 1) else max
  if max' = some 0 then empty
  else if min' = 1 ∧ max' = some 1 then n
  else repetition min' max' greedy n

/-! ## Measures -/

/-- The largest number of a group. -/
def maxGroup : Node → Nat
  | empty => 0
  | text _ => 0
  | set _ _ => 0
  | look _ => 0
  | group i n => max i n.maxGroup
  | seq a b => max a.maxGroup b.maxGroup
  | alt a b => max a.maxGroup b.maxGroup
  | repetition _ _ _ n => n.maxGroup

/-- Whether a node may match the empty text. -/
def isNullable : Node → Bool
  | empty => true
  | text _ => false
  | set _ _ => false
  | look _ => true
  | group _ n => n.isNullable
  | seq a b => a.isNullable && b.isNullable
  | alt a b => a.isNullable || b.isNullable
  | repetition min _ _ n => min == 0 || n.isNullable

end Node

end Regex

end RequestCondition

import RequestCondition.Network.Address
import RequestCondition.Text.Blank

/-!
# Blocks of addresses

A block is an address and the number of leading bits that its members share with it.  It is written
with that number behind a slash, or without, and then it is the address alone.

`Block.contains?` asks whether an address is in a block.  Addresses of the other length never are;
for those of the same length the number of bits has to make sense.
-/

set_option autoImplicit false

namespace RequestCondition

/-- An address and the number of its leading bits that count, if there is one. -/
structure Block where
  base : Address
  bits? : Option Nat
deriving DecidableEq

namespace Block

/-- Reads a block; blanks may stand around it. -/
def ofText? (s : String) : Option Block :=
  let cs := trimBlanks s.toList
  if cs.contains '/' then do
    let bits ← Decimal.word32? (cs.dropWhile (· != '/')).tail
    let base ← Address.ofText? (String.ofList (cs.takeWhile (· != '/')))
    pure ⟨base, some bits⟩
  else (Address.ofText? (String.ofList cs)).map (⟨·, none⟩)

/-- The word whose first `n` bits are set. -/
def leadingOnes (w n : Nat) : BitVec w := BitVec.allOnes w <<< (w - n)

/-- Whether two words agree in their first `n` bits. -/
def agree {w : Nat} (n : Nat) (a b : BitVec w) : Bool :=
  a &&& leadingOnes w n == b &&& leadingOnes w n

/-- Whether an address is in a block; `none` if the block has more bits than the address. -/
def contains? (b : Block) (a : Address) : Option Bool :=
  match a, b.base with
  | .v4 x, .v4 y =>
    let n := b.bits?.getD 32
    if 32 < n then none else some (agree n x y)
  | .v6 x, .v6 y =>
    let n := b.bits?.getD 128
    if 128 < n then none else some (agree n x y)
  | _, _ => some false

/-- Whether a text is an address in the block that another text names: false for a text that is no
address, `none` if the block makes no sense. -/
def containsText? (address block : String) : Option Bool :=
  match Address.ofText? (trim address) with
  | none => some false
  | some a =>
    match ofText? block with
    | none => none
    | some b => b.contains? a

end Block

end RequestCondition

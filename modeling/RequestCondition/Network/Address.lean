import RequestCondition.Decimal.Reader

/-!
# Internet addresses

An address has 32 bits or 128.  The short kind is written as four decimal numbers, the long kind as
eight hexadecimal groups, of which a run of zeros may be left out once and the last two may be
written as a short address.

The readers below take an address off the front of a text and return the rest; `Address.ofText?`
asks that nothing be left.
-/

set_option autoImplicit false

namespace RequestCondition

/-- An internet address. -/
inductive Address where
  | v4 (bits : BitVec 32)
  | v6 (bits : BitVec 128)
deriving DecidableEq

namespace Address

/-- The value of a hexadecimal digit. -/
def hexDigit? (c : Char) : Option Nat :=
  if '0' ≤ c ∧ c ≤ '9' then some (c.toNat - '0'.toNat)
  else if 'a' ≤ c ∧ c ≤ 'f' then some (c.toNat - 'a'.toNat + 10)
  else if 'A' ≤ c ∧ c ≤ 'F' then some (c.toNat - 'A'.toNat + 10)
  else none

/-- The digits at the front of a text, as values. -/
def leadingDigits (digit? : Char → Option Nat) : List Char → List Nat
  | [] => []
  | c :: cs =>
    match digit? c with
    | some d => d :: leadingDigits digit? cs
    | none => []

/-- A number of at most `width` digits. -/
def number? (digit? : Char → Option Nat) (base width : Nat) (cs : List Char) :
    Option (Nat × List Char) :=
  let ds := leadingDigits digit? cs
  if ds.isEmpty || width < ds.length then none
  else some (ds.foldl (fun n d ↦ base * n + d) 0, cs.drop ds.length)

/-- One of the four numbers of a short address: it has no leading zero and fits a byte. -/
def octet? (cs : List Char) : Option (Nat × List Char) := do
  let (n, rest) ← number? digitValue? 10 3 cs
  if 255 < n then none
  else if cs.head? = some '0' ∧ cs.length ≠ rest.length + 1 then none
  else pure (n, rest)

/-- What follows a given character. -/
def after? (c : Char) : List Char → Option (List Char)
  | [] => none
  | x :: xs => if x = c then some xs else none

/-- A short address at the front of a text, as four numbers. -/
def octets? (cs : List Char) : Option ((Nat × Nat × Nat × Nat) × List Char) := do
  let (a, cs) ← octet? cs
  let (b, cs) ← octet? (← after? '.' cs)
  let (c, cs) ← octet? (← after? '.' cs)
  let (d, cs) ← octet? (← after? '.' cs)
  pure ((a, b, c, d), cs)

/-- What follows the colon before a group, if the group is not the first. -/
def afterColon? (first : Bool) (cs : List Char) : Option (List Char) :=
  if first then some cs else after? ':' cs

/-- At most `limit` groups, the values that they and a short address at their end give, whether
there is one, and the rest of the text. -/
def groups (first : Bool) : Nat → List Char → List Nat × Bool × List Char
  | 0, cs => ([], false, cs)
  | limit + 1, cs =>
    match (if 0 < limit then afterColon? first cs >>= octets? else none) with
    | some ((a, b, c, d), rest) => ([256 * a + b, 256 * c + d], true, rest)
    | none =>
      match afterColon? first cs >>= number? hexDigit? 16 4 with
      | some (g, rest) =>
        let (gs, short, rest') := groups false limit rest
        (g :: gs, short, rest')
      | none => ([], false, cs)

/-- The bits of eight groups. -/
def ofGroups (gs : List Nat) : BitVec 128 := BitVec.ofNat 128 (gs.foldl (fun n g ↦ 65536 * n + g) 0)

/-- A long address at the front of a text. -/
def long? (cs : List Char) : Option (BitVec 128 × List Char) :=
  let (head, short, rest) := groups true 8 cs
  if head.length = 8 then some (ofGroups head, rest)
  else if short then none
  else do
    let rest ← after? ':' (← after? ':' rest)
    let (tail, _, rest) := groups true (7 - head.length) rest
    pure (ofGroups (head ++ List.replicate (8 - head.length - tail.length) 0 ++ tail), rest)

/-- Reads an address. -/
def ofText? (s : String) : Option Address :=
  match octets? s.toList with
  | some ((a, b, c, d), rest) =>
    if rest.isEmpty then some (.v4 (BitVec.ofNat 32 (((256 * a + b) * 256 + c) * 256 + d)))
    else none
  | none =>
    match long? s.toList with
    | some (bits, rest) => if rest.isEmpty then some (.v6 bits) else none
    | none => none

end Address

end RequestCondition

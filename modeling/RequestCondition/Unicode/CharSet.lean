/-!
# Sets of characters

A `CharSet` is kept as the code points, in ascending order, at which membership changes: a
character is a member when an odd number of them lie at or below it.  Complement then adds or takes
away a change at zero, and every other Boolean combination is one walk along two lists
(`CharSet.combine`).

Tables of ranges are written as text, in hexadecimal, and read by `CharSet.ofText`.
-/

set_option autoImplicit false

namespace RequestCondition

/-- A set of characters, by the places where membership changes. -/
structure CharSet where
  flips : List Nat
deriving DecidableEq

namespace CharSet

/-- Whether a code point is a member, given whether the points before the first change are. -/
def insideAt (inside : Bool) (n : Nat) : List Nat → Bool
  | [] => inside
  | f :: fs => if n < f then inside else insideAt (!inside) n fs

/-- Whether a code point is a member. -/
def containsCode (s : CharSet) (n : Nat) : Bool := insideAt false n s.flips

/-- Whether a character is a member. -/
def contains (s : CharSet) (c : Char) : Bool := s.containsCode c.toNat

/-! ## Building sets -/

def empty : CharSet := ⟨[]⟩

def all : CharSet := ⟨[0]⟩

/-- The code points between two bounds, both included. -/
def range (lo hi : Nat) : CharSet := if lo ≤ hi then ⟨[lo, hi + 1]⟩ else empty

def single (n : Nat) : CharSet := range n n

/-- The set of all other characters. -/
def compl (s : CharSet) : CharSet :=
  match s.flips with
  | 0 :: fs => ⟨fs⟩
  | fs => ⟨0 :: fs⟩

theorem insideAt_not (inside : Bool) (n : Nat) (fs : List Nat) :
    insideAt (!inside) n fs = !insideAt inside n fs := by
  induction fs generalizing inside with
  | nil => rfl
  | cons f fs ih =>
    rw [insideAt, insideAt]
    split
    · rfl
    · exact ih _

theorem containsCode_compl (s : CharSet) (n : Nat) :
    s.compl.containsCode n = !s.containsCode n := by
  obtain ⟨fs⟩ := s
  match fs with
  | 0 :: fs =>
    have h := insideAt_not false n fs
    simp only [compl, containsCode, insideAt, Nat.not_lt_zero, if_false, h, Bool.not_not]
  | [] => rfl
  | (f + 1) :: fs =>
    have h := insideAt_not false n ((f + 1) :: fs)
    simpa only [compl, containsCode, insideAt, Nat.not_lt_zero, if_false] using h

/-- Walks along the changes of two sets and keeps the places where the combined membership changes.
`fuel` bounds the changes that are left. -/
def merge (op : Bool → Bool → Bool) : Nat → Bool → Bool → Bool → List Nat → List Nat → List Nat
  | 0, _, _, _, _, _ => []
  | fuel + 1, a, b, out, xs, ys =>
    let step := fun (at_ : Nat) (a b : Bool) (xs ys : List Nat) ↦
      let out' := op a b
      if out' == out then merge op fuel a b out xs ys
      else at_ :: merge op fuel a b out' xs ys
    match xs, ys with
    | [], [] => []
    | x :: xs, [] => step x (!a) b xs []
    | [], y :: ys => step y a (!b) [] ys
    | x :: xs, y :: ys =>
      if x < y then step x (!a) b xs (y :: ys)
      else if y < x then step y a (!b) (x :: xs) ys
      else step x (!a) (!b) xs ys

/-- The characters whose membership in two sets has a given combination. -/
def combine (op : Bool → Bool → Bool) (s t : CharSet) : CharSet :=
  let fs := merge op (s.flips.length + t.flips.length) false false (op false false) s.flips t.flips
  ⟨if op false false then 0 :: fs else fs⟩

def union (s t : CharSet) : CharSet := combine or s t

def inter (s t : CharSet) : CharSet := combine and s t

def diff (s t : CharSet) : CharSet := combine (fun a b ↦ a && !b) s t

def symmDiff (s t : CharSet) : CharSet := combine xor s t

/-- The union of a list of sets. -/
def unions : List CharSet → CharSet
  | [] => empty
  | s :: ss => union s (unions ss)

/-- The places where membership changes for code points in ascending order, given where the run of
neighbours that is being read ends. -/
def flipsOfSorted (open_ : Option Nat) : List Nat → List Nat
  | [] => open_.toList
  | n :: ns =>
    match open_ with
    | none => n :: flipsOfSorted (some (n + 1)) ns
    | some e =>
      if n < e then flipsOfSorted (some e) ns
      else if n = e then flipsOfSorted (some (n + 1)) ns
      else e :: n :: flipsOfSorted (some (n + 1)) ns

/-- The set of some code points. -/
def ofCodes (ns : List Nat) : CharSet := ⟨flipsOfSorted none (ns.mergeSort (· ≤ ·))⟩

/-! ## A form of their own -/

/-- The ranges of a set from its changes: the first member of each and the first number behind it.
-/
def rangesOfFlips : List Nat → List (Nat × Nat)
  | [] => []
  | [lo] => [(lo, 0x110000)]
  | lo :: hi :: fs => (lo, hi) :: rangesOfFlips fs

/-- The changes of a range once its ends are characters: the code points from `d800` to `dfff`, and
those beyond `10ffff`, are none. -/
def trimmed (r : Nat × Nat) : List Nat :=
  let lo := if 0xD800 ≤ r.1 && r.1 < 0xE000 then 0xE000 else r.1
  let hi := if 0xD800 < r.2 && r.2 ≤ 0xE000 then 0xD800 else Nat.min r.2 0x110000
  if lo < hi then [lo, hi] else []

/-- The same characters, as ranges that start and end at characters. -/
def canonical (s : CharSet) : CharSet := ⟨(rangesOfFlips s.flips).flatMap trimmed⟩

/-- Whether all members are ASCII. -/
def isAscii (s : CharSet) : Bool := s.flips.length % 2 == 0 && s.flips.all (· ≤ 0x80)

/-! ## Tables -/

/-- The value of a hexadecimal digit in lower case. -/
def hexValue? (c : Char) : Option Nat :=
  if '0' ≤ c ∧ c ≤ '9' then some (c.toNat - '0'.toNat)
  else if 'a' ≤ c ∧ c ≤ 'f' then some (c.toNat - 'a'.toNat + 10)
  else none

/-- The value of a run of hexadecimal digits in lower case. -/
def hexNumber (cs : List Char) : Nat :=
  cs.foldl (fun n c ↦ 16 * n + (hexValue? c).getD 0) 0

/-- Reads a range, two numbers with a dash between them, or a single number. -/
def rangeOfText (cs : List Char) : Nat × Nat :=
  let lo := cs.takeWhile (· != '-')
  let hi := (cs.dropWhile (· != '-')).tail
  (hexNumber lo, if hi.isEmpty then hexNumber lo else hexNumber hi)

/-- The words of a text, without the blanks between them. -/
def words (s : String) : List (List Char) :=
  (s.toList.splitBy fun a b ↦ !a.isWhitespace && !b.isWhitespace).filter (!·.all Char.isWhitespace)

/-- Reads ranges in ascending order that do not touch. -/
def ofText (s : String) : CharSet :=
  ⟨(words s).flatMap fun w ↦ let (lo, hi) := rangeOfText w; [lo, hi + 1]⟩

end CharSet

end RequestCondition

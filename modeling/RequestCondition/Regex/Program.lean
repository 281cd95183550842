import RequestCondition.Regex.Node

/-!
# Programs

A node is turned into a program: instructions that consume a character, check a condition, note a
place or go on in two ways.  `Program.add` puts the instructions of a node in front of a
continuation, so that every instruction knows where it goes on; only loops need an instruction that
is reserved first and filled in when the body is known.

A loop over something that may be empty has two branchings, one to enter it and one behind each
round.  With a single one the empty round would hide the preferences that come after it.
-/

set_option autoImplicit false

namespace RequestCondition

namespace Regex

/-- An instruction, with the places where it goes on. -/
inductive Instr where
  | consume (s : CharSet) (next : Nat)
  | look (l : Look) (next : Nat)
  /-- The first way is preferred. -/
  | split (first second : Nat)
  /-- Notes the place under a number. -/
  | save (slot next : Nat)
  | accept

/-- Instructions, the place of the first one to run, and the number of groups. -/
structure Program where
  instrs : Array Instr
  start : Nat
  groupCount : Nat

namespace Program

/-- The instructions so far. -/
abbrev Builder := StateM (Array Instr)

/-- Adds an instruction. -/
def emit (i : Instr) : Builder Nat := fun code ↦ (code.size, code.push i)

/-- Fills in an instruction. -/
def fill (place : Nat) (i : Instr) : Builder Unit := fun code ↦ ((), code.setIfInBounds place i)

/-- A branching that prefers one way if `greedy` and the other one otherwise. -/
def branch (greedy : Bool) (more done : Nat) : Instr :=
  if greedy then .split more done else .split done more

/-- Does something so many times, each time in front of what was done before. -/
def times (step : Nat → Builder Nat) : Nat → Nat → Builder Nat
  | 0, next => pure next
  | n + 1, next => do
    let next' ← step next
    times step n next'

/-- One round or more in front of a continuation. -/
def loop (greedy : Bool) (body : Nat → Builder Nat) (next : Nat) : Builder (Nat × Nat) := do
  let again ← emit .accept
  let first ← body again
  fill again (branch greedy first next)
  pure (again, first)

/-- Puts the instructions of characters in a row in front of a continuation. -/
def addText : List Char → Nat → Builder Nat
  | [], next => pure next
  | c :: cs, next => do
    let rest ← addText cs next
    emit (.consume (.single c.toNat) rest)

/-- Puts the instructions of a node in front of a continuation. -/
def add : Node → Nat → Builder Nat
  | .empty, next => pure next
  | .text cs, next => addText cs next
  | .set _ s, next => emit (.consume s next)
  | .look l, next => emit (.look l next)
  | .group i n, next => do
    let close ← emit (.save (2 * i + 1) next)
    let inside ← add n close
    emit (.save (2 * i) inside)
  | .seq a b, next => do
    let second ← add b next
    add a second
  | .alt a b, next => do
    let first ← add a next
    let second ← add b next
    emit (.split first second)
  | .repetition min none greedy n, next =>
    let body := add n
    match min with
    | 0 => do
      let (again, first) ← loop greedy body next
      if n.isNullable then emit (branch greedy first next) else pure again
    | m + 1 => do
      let (_, first) ← loop greedy body next
      times body m first
  | .repetition min (some max) greedy n, next => do
    let body := add n
    let optional := fun (rest : Nat) ↦ do
      let first ← body rest
      emit (branch greedy first next)
    let rest ← times optional (max - min) next
    times body min rest

/-- The program of a node.  The whole match is the group zero. -/
def ofNode (n : Node) : Program :=
  let (start, instrs) := (do
    let accept ← emit .accept
    add (.group 0 n) accept : Builder Nat).run #[]
  ⟨instrs, start, n.maxGroup + 1⟩

end Program

end Regex

end RequestCondition

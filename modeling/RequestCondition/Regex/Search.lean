import RequestCondition.Regex.Engine
import RequestCondition.Regex.Meaning
import RequestCondition.Regex.Program

/-!
# Searching

A program is run on all paths at once.  A *thread* is an instruction to run next and the places
noted on the way to it; threads are kept in order of preference, and of two at one instruction only
the preferred one is kept.  So each character costs at most one pass over the program.

A search finds the match that starts first and, of those, the one that the program prefers: a new
thread is started at every place until a match is found, and a match drops all threads that are
less preferred.
-/

set_option autoImplicit false

namespace RequestCondition

namespace Regex

/-- The places noted on a path, by number. -/
abbrev Slots := Array (Option Nat)

/-- An instruction and the path to it. -/
structure Thread where
  place : Nat
  slots : Slots

/-- A place in a text: the characters on both sides and the number of those before. -/
structure Position where
  before : Option Char
  after : Option Char
  index : Nat

namespace Position

/-- Whether a condition on words holds between two characters. -/
def holdsWord (isWord : Option Char → Bool) (p : Position) : WordCondition → Bool
  | .boundary => isWord p.before != isWord p.after
  | .noBoundary => isWord p.before == isWord p.after
  | .start => !isWord p.before && isWord p.after
  | .finish => isWord p.before && !isWord p.after
  | .startHalf => !isWord p.before
  | .endHalf => !isWord p.after

/-- Whether a condition holds at a place. -/
def holds (p : Position) : Look → Bool
  | .textStart => p.before.isNone
  | .textEnd => p.after.isNone
  | .lineStart false => p.before.isNone || p.before == some '\n'
  | .lineEnd false => p.after.isNone || p.after == some '\n'
  | .lineStart true =>
    p.before.isNone || p.before == some '\n' || (p.before == some '\r' && p.after != some '\n')
  | .lineEnd true =>
    p.after.isNone || p.after == some '\r' || (p.after == some '\n' && p.before != some '\r')
  | .word condition unicode =>
    let words := if unicode then Property.word else asciiWord
    p.holdsWord (fun c ↦ c.any words.contains) condition

end Position

namespace Program

/-- Follows threads, in order, up to where they accept or consume a character.  `seen` marks the
instructions that have been reached, and `found` holds the threads that wait there, the last one
first.  Each round takes a thread off and puts back at most two, where an instruction is reached
for the first time. -/
def follow (prog : Program) (p : Position) :
    Nat → List Thread → Array Bool → List Thread → List Thread
  | 0, _, _, found => found.reverse
  | _, [], _, found => found.reverse
  | fuel + 1, t :: ts, seen, found =>
    if seen.getD t.place true then follow prog p fuel ts seen found
    else
      let seen := seen.setIfInBounds t.place true
      match prog.instrs[t.place]? with
      | none => follow prog p fuel ts seen found
      | some (.look l next) =>
        if p.holds l then follow prog p fuel (⟨next, t.slots⟩ :: ts) seen found
        else follow prog p fuel ts seen found
      | some (.split a b) =>
        follow prog p fuel (⟨a, t.slots⟩ :: ⟨b, t.slots⟩ :: ts) seen found
      | some (.save slot next) =>
        follow prog p fuel (⟨next, t.slots.setIfInBounds slot (some p.index)⟩ :: ts) seen found
      | some _ => follow prog p fuel ts seen (t :: found)

/-- Lets threads consume a character.  A thread that accepts ends the round: its path is returned,
and the threads behind it are dropped. -/
def step (prog : Program) (c : Option Char) : List Thread → List Thread × Option Slots
  | [] => ([], none)
  | t :: ts =>
    match prog.instrs[t.place]? with
    | some .accept => ([], some t.slots)
    | some (.consume s next) =>
      let (ts', accepted) := step prog c ts
      if c.any s.contains then (⟨next, t.slots⟩ :: ts', accepted) else (ts', accepted)
    | _ => step prog c ts

/-- Runs threads on what is left of a text, and returns the best path to an acceptance. -/
def run (prog : Program) (before : Option Char) (index : Nat) (threads : List Thread)
    (best : Option Slots) : List Char → Option Slots
  | [] =>
    let (_, accepted) := step prog none (waiting ⟨before, none, index⟩)
    accepted.or best
  | c :: cs =>
    let (threads', accepted) := step prog (some c) (waiting ⟨before, some c, index⟩)
    let best := accepted.or best
    if threads'.isEmpty && best.isSome then best
    else run prog (some c) (index + 1) threads' best cs
where
  /-- The threads that wait at a place; until there is a match a new one starts. -/
  waiting (p : Position) : List Thread :=
    let threads := threads ++
      (if best.isNone then [⟨prog.start, Array.replicate (2 * prog.groupCount) none⟩] else [])
    follow prog p (threads.length + 2 * prog.instrs.size + 1) threads
      (Array.replicate prog.instrs.size false) []

/-- The first match in a text.  A group has taken part if both of its ends have been noted. -/
def find? (prog : Program) (text : String) : Option Groups :=
  let cs := text.toList
  (prog.run none 0 [] none cs).map fun slots ↦
    (List.range prog.groupCount).map fun i ↦
      match slots.getD (2 * i) none, slots.getD (2 * i + 1) none with
      | some a, some b => some (String.ofList ((cs.drop a).take (b - a)))
      | _, _ => none

end Program

end Regex

end RequestCondition

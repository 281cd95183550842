import RequestCondition.Regex.Node
import RequestCondition.Regex.Pattern
import RequestCondition.Unicode.CaseChange
import RequestCondition.Unicode.Script

/-!
# The meaning of patterns

`Node.ofPattern?` reads a pattern from left to right and carries the flags along.  Some patterns
have no meaning: those that ask for a property that does not exist, and those that would match
bytes that are no text, which can happen where characters are not read as Unicode.
-/

set_option autoImplicit false

namespace RequestCondition

namespace Regex

/-- The flags that hold at a place of a pattern. -/
structure Flags where
  ignoreCase : Bool
  multiLine : Bool
  dotAll : Bool
  swapGreed : Bool
  unicode : Bool
  crlf : Bool
deriving DecidableEq

namespace Flags

/-- The flags at the start of a pattern. -/
def initial (ignoreCase : Bool) : Flags := ⟨ignoreCase, false, false, false, true, false⟩

def set (fs : Flags) : Flag × Bool → Flags
  | (.ignoreCase, b) => { fs with ignoreCase := b }
  | (.multiLine, b) => { fs with multiLine := b }
  | (.dotAll, b) => { fs with dotAll := b }
  | (.swapGreed, b) => { fs with swapGreed := b }
  | (.unicode, b) => { fs with unicode := b }
  | (.crlf, b) => { fs with crlf := b }
  | (.extended, _) => fs

def setAll (fs : Flags) (settings : FlagSettings) : Flags := settings.foldl set fs

end Flags

/-! ## Sets of characters -/

/-- A set with all characters that equal one of its members regardless of case. -/
def foldUnicode (s : CharSet) : CharSet :=
  let s' := s.union (.ofCodes ((CaseMap.foldPairs.filter fun p ↦ s.containsCode p.1).map (·.2)))
  s'.union (.ofCodes ((CaseMap.foldPairs.filter fun p ↦ s'.containsCode p.2).map (·.1)))

/-- A set with the ASCII letters that equal one of its members regardless of case. -/
def foldAscii (s : CharSet) : CharSet :=
  s.union (.ofCodes ((List.range 26).flatMap fun i ↦
    (if s.containsCode (0x41 + i) then [0x61 + i] else []) ++
      (if s.containsCode (0x61 + i) then [0x41 + i] else [])))

/-- A set as the case flag has it. -/
def foldBy (fs : Flags) (s : CharSet) : CharSet :=
  if fs.ignoreCase then if fs.unicode then foldUnicode s else foldAscii s else s

/-- A set, or all other characters.  Where characters are not read as Unicode the other ones are
bytes that are no text, and so are members beyond ASCII. -/
def complemented? (fs : Flags) (negated : Bool) (s : CharSet) : Option CharSet :=
  let s' := if negated then s.compl else s
  if fs.unicode || s'.isAscii then some s' else none

/-- The characters of words in ASCII. -/
def asciiWord : CharSet := .ofText "30-39 41-5a 5f 61-7a"

/-- The set with a letter of its own. -/
def letterSet (unicode : Bool) : LetterClass → CharSet
  | .digit => if unicode then Property.digit else .ofText "30-39"
  | .space => if unicode then Property.whiteSpace else .ofText "9-d 20"
  | .word => if unicode then Property.word else asciiWord

/-- The set with a name between colons. -/
def namedSet : NamedClass → CharSet
  | .alnum => .ofText "30-39 41-5a 61-7a"
  | .alpha => .ofText "41-5a 61-7a"
  | .ascii => .ofText "0-7f"
  | .blank => .ofText "9 20"
  | .cntrl => .ofText "0-1f 7f"
  | .digit => .ofText "30-39"
  | .graph => .ofText "21-7e"
  | .lower => .ofText "61-7a"
  | .print => .ofText "20-7e"
  | .punct => .ofText "21-2f 3a-40 5b-60 7b-7e"
  | .space => .ofText "9-d 20"
  | .upper => .ofText "41-5a"
  | .word => asciiWord
  | .xdigit => .ofText "30-39 41-46 61-66"

/-! ## Properties -/

/-- The name of a property or a value as it is looked up: in lower case, without separators and
without a leading `is`. -/
def looseName (s : String) : String :=
  let cs := s.toList
  let isPrefixed := (cs.take 2).map Char.toLower = ['i', 's']
  let core := ((if isPrefixed then cs.drop 2 else cs).filter fun c ↦
    c != ' ' && c != '_' && c != '-' && c.toNat < 0x80).map Char.toLower
  String.ofList (if isPrefixed && core == ['c'] then ['i', 's', 'c'] else core)

/-- The set with a name: a property, a category or a script. -/
def setOfName? (name : String) : Option CharSet :=
  (if name = "cf" ∨ name = "sc" ∨ name = "lc" then none
    else (Property.ofName? name).or (CaseChange.ofName? name)).or
    ((Category.ofName? name).or ((Script.ofName? name).map Script.charSet))

/-- The set that a question for a property asks for. -/
def querySet? : PropertyQuery → Option CharSet
  | .name name => setOfName? (looseName name)
  | .value property value =>
    let p := looseName property
    if p = "gc" ∨ p = "generalcategory" then Category.ofName? (looseName value)
    else if p = "sc" ∨ p = "script" then (Script.ofName? (looseName value)).map Script.charSet
    else if p = "scx" ∨ p = "scriptextensions" then
      (Script.ofName? (looseName value)).map Script.extension
    else none

/-- The set that a property stands for. -/
def propertySet? (fs : Flags) (q : PropertyQuery) (negated : Bool) : Option CharSet :=
  if fs.unicode then
    (querySet? q).bind fun s ↦ complemented? fs negated (foldBy fs s)
  else none

/-! ## Characters and classes -/

/-- The code point of a character of a pattern, if it stands for a character. -/
def literalCode? (fs : Flags) (l : Literal) : Option Nat :=
  if !fs.unicode && l.isByte && 0x7F < l.char.toNat then none else some l.char.toNat

/-- The code point of a character between brackets; bytes beyond ASCII are none. -/
def classCode? (fs : Flags) (l : Literal) : Option Nat :=
  if !fs.unicode && 0x7F < l.char.toNat then none else some l.char.toNat

/-- Combines two sets by an operator between brackets. -/
def ClassOp.combine : ClassOp → CharSet → CharSet → CharSet
  | intersection => CharSet.inter
  | difference => CharSet.diff
  | symmetricDifference => CharSet.symmDiff

mutual

/-- The set that stands between brackets.  Case is taken into account at each closing bracket and on
both sides of an operator. -/
def classSet? (fs : Flags) : ClassSet → Option CharSet
  | .empty => some .empty
  | .literal l => (classCode? fs l).map CharSet.single
  | .range lo hi => do
    let a ← classCode? fs lo
    let b ← classCode? fs hi
    pure (.range a b)
  | .named c negated => complemented? fs negated (foldBy fs (namedSet c))
  | .letter c negated => complemented? fs negated (letterSet fs.unicode c)
  | .property q negated => propertySet? fs q negated
  | .bracketed negated s => do
    let inside ← classSet? fs s
    complemented? fs negated (foldBy fs inside)
  | .union items => classUnion? fs items
  | .operation op l r => do
    let a ← classSet? fs l
    let b ← classSet? fs r
    pure (op.combine (foldBy fs a) (foldBy fs b))

/-- The union of the sets of some items. -/
def classUnion? (fs : Flags) : List ClassSet → Option CharSet
  | [] => some .empty
  | s :: ss => do
    let a ← classSet? fs s
    let b ← classUnion? fs ss
    pure (a.union b)

end

/-- What a dot stands for. -/
def dotSet? (fs : Flags) : Option CharSet :=
  if !fs.unicode then none
  else if fs.dotAll then some .all
  else if fs.crlf then some (CharSet.ofCodes [0xA, 0xD]).compl
  else some (CharSet.single 0xA).compl

/-- What an assertion looks at. -/
def lookOf (fs : Flags) : Assertion → Look
  | .lineStart => if fs.multiLine then .lineStart fs.crlf else .textStart
  | .lineEnd => if fs.multiLine then .lineEnd fs.crlf else .textEnd
  | .textStart => .textStart
  | .textEnd => .textEnd
  | .wordBoundary => .word .boundary fs.unicode
  | .notWordBoundary => .word .noBoundary fs.unicode
  | .wordStart => .word .start fs.unicode
  | .wordEnd => .word .finish fs.unicode
  | .wordStartHalf => .word .startHalf fs.unicode
  | .wordEndHalf => .word .endHalf fs.unicode

namespace Node

mutual

/-- The meaning of a pattern where some flags hold, and the flags behind it. -/
def ofPatternAt? (fs : Flags) : Pattern → Option (Node × Flags)
  | .empty => some (.empty, fs)
  | .flags settings => some (.empty, fs.setAll settings)
  | .literal l => (literalCode? fs l).map fun n ↦ (ofSet fs.unicode (foldBy fs (.single n)), fs)
  | .dot => (dotSet? fs).map fun s ↦ (ofSet fs.unicode s, fs)
  | .assertion a => some (.look (lookOf fs a), fs)
  | .letter c negated =>
    (complemented? fs negated (letterSet fs.unicode c)).map fun s ↦ (ofSet fs.unicode s, fs)
  | .property q negated => (propertySet? fs q negated).map fun s ↦ (ofSet fs.unicode s, fs)
  | .bracketed negated inside => do
    let s ← classSet? fs inside
    let s ← complemented? fs negated (foldBy fs s)
    pure (ofSet fs.unicode s, fs)
  | .repetition min max greedy p => do
    let (n, fs') ← ofPatternAt? fs p
    pure (repeated min max (greedy != fs'.swapGreed) n, fs')
  | .group (.capture i) p => do
    let (n, _) ← ofPatternAt? fs p
    pure (.group i n, fs)
  | .group (.plain settings) p => do
    let (n, _) ← ofPatternAt? (fs.setAll settings) p
    pure (n, fs)
  | .alternation ps => do
    let (ns, fs') ← ofPatternsAt? fs ps
    pure (alternation ns, fs')
  | .concat ps => do
    let (ns, fs') ← ofPatternsAt? fs ps
    pure (concat ns, fs')

/-- The meanings of patterns, in order; flags last from one to the next. -/
def ofPatternsAt? (fs : Flags) : List Pattern → Option (List Node × Flags)
  | [] => some ([], fs)
  | p :: ps => do
    let (n, fs') ← ofPatternAt? fs p
    let (ns, fs'') ← ofPatternsAt? fs' ps
    pure (n :: ns, fs'')

end

/-- The meaning of a pattern. -/
def ofPattern? (ignoreCase : Bool) (p : Pattern) : Option Node :=
  (ofPatternAt? (.initial ignoreCase) p).map (·.1)

end Node

end Regex

end RequestCondition

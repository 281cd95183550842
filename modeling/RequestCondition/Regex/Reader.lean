import RequestCondition.Regex.Pattern
import RequestCondition.Text.Blank
import RequestCondition.Unicode.Property

/-!
# Reading patterns

The reader goes through a pattern once, from left to right.  It keeps the number of capturing groups
that have been opened and their names, and whether the pattern is *extended*: then blanks and
comments between its pieces are skipped.  Extension is switched by a flag and, like all flags, lasts
to the end of the group.

A pattern is read or it is not; the reader does not say why.

Three functions call each other: alternatives are made of pieces, a piece may be a group, and a
group holds alternatives.  Each call but the first is made behind a character that has been read, so
`fuel`, the length of the pattern, is enough for all of them.  Classes, which nest as well, have a
recursion of their own.
-/

set_option autoImplicit false

namespace RequestCondition

namespace Regex

/-- What a reader knows between two characters. -/
structure ReaderState where
  rest : List Char
  extended : Bool
  groupCount : Nat
  names : List (List Char)

/-- A reading step, which may fail. -/
abbrev ReaderM := StateT ReaderState Option

namespace Reader

/-! ## Steps -/

/-- Fails. -/
def refuse {α : Type} : ReaderM α := fun _ ↦ none

/-- The next character. -/
def peek : ReaderM (Option Char) := fun s ↦ some (s.rest.head?, s)

/-- The next character, which has to be there. -/
def current : ReaderM Char := fun s ↦ s.rest.head?.map fun c ↦ (c, s)

/-- Whether the next character is a given one. -/
def at_ (c : Char) : ReaderM Bool := fun s ↦ some (s.rest.head? == some c, s)

/-- Moves past a character. -/
def skip : ReaderM Unit := fun s ↦ some ((), { s with rest := s.rest.tail })

/-- Moves past a text if it comes next. -/
def skipIf (text : List Char) : ReaderM Bool := fun s ↦
  if text.isPrefixOf s.rest then some (true, { s with rest := s.rest.drop text.length })
  else some (false, s)

/-- A text without the blanks and comments at its front. -/
def dropComments (inComment : Bool) : List Char → List Char
  | [] => []
  | c :: cs =>
    if inComment then dropComments (c != '\n') cs
    else if isBlank c then dropComments false cs
    else if c = '#' then dropComments true cs
    else c :: cs

/-- Moves past blanks and comments where the pattern is extended. -/
def skipBlanks : ReaderM Unit := fun s ↦
  some ((), if s.extended then { s with rest := dropComments false s.rest } else s)

/-- Moves past a character and the blanks behind it; something has to follow. -/
def skipOn : ReaderM Unit := do
  skip
  skipBlanks
  let _ ← current

/-- Moves past a character and the blanks behind it. -/
def skipLast : ReaderM Unit := do
  skip
  skipBlanks

/-- The character behind the next one, blanks left out where the pattern is extended. -/
def peekSecond : ReaderM (Option Char) := fun s ↦
  let cs := s.rest.tail
  let second :=
    if s.extended then
      match cs.dropWhile isBlank with
      | '#' :: cs' => (cs'.dropWhile isBlank).head?.or cs.head?
      | c :: _ => some c
      | [] => cs.head?
    else cs.head?
  some (second, s)

/-- A text up to where a character stands, moving past blanks behind each of its own. -/
def collectUntil (stop : Char) : Nat → ReaderM (List Char)
  | 0 => refuse
  | fuel + 1 => do
    skipOn
    let c ← current
    if c = stop then pure []
    else
      let cs ← collectUntil stop fuel
      pure (c :: cs)

/-- The characters that pass a test, moving past blanks behind each. -/
def collectWhile (test : Char → Bool) : Nat → ReaderM (List Char)
  | 0 => pure []
  | fuel + 1 => do
    match ← peek with
    | some c =>
      if test c then
        skipLast
        let cs ← collectWhile test fuel
        pure (c :: cs)
      else pure []
    | none => pure []

/-- A bound on the characters to come. -/
def bound : ReaderM Nat := fun s ↦ some (s.rest.length + 1, s)

/-! ## Numbers -/

/-- The number of a text of decimal digits, if it has 32 bits. -/
def word32? (base : Nat) (digit? : Char → Option Nat) (cs : List Char) : Option Nat :=
  cs.foldlM (fun n c ↦ (digit? c).bind fun d ↦
    if base * n + d < 4294967296 then some (base * n + d) else none) 0

def decimalDigit? (c : Char) : Option Nat :=
  if '0' ≤ c ∧ c ≤ '9' then some (c.toNat - '0'.toNat) else none

def hexDigit? (c : Char) : Option Nat :=
  if 'A' ≤ c ∧ c ≤ 'F' then some (c.toNat - 'A'.toNat + 10) else CharSet.hexValue? c

/-- A decimal number; blanks may stand around it. -/
def decimal : ReaderM Nat := do
  modify fun s ↦ { s with rest := s.rest.dropWhile isBlank }
  let ds ← collectWhile (decimalDigit? · |>.isSome) (← bound)
  let _ ← collectWhile isBlank (← bound)
  if ds.isEmpty then refuse
  else
    match word32? 10 decimalDigit? ds with
    | some n => pure n
    | none => refuse

/-- The character whose code point some hexadecimal digits give. -/
def charOfHex (cs : List Char) : ReaderM Char :=
  match word32? 16 hexDigit? cs with
  | some n => if h : n.isValidChar then pure (Char.ofNatAux n h) else refuse
  | none => refuse

/-- Exactly so many hexadecimal digits. -/
def hexDigits : Nat → ReaderM (List Char)
  | 0 => pure []
  | n + 1 => do
    let c ← current
    if (hexDigit? c).isNone then refuse
    else
      if n = 0 then skipLast else skipOn
      let cs ← hexDigits n
      pure (c :: cs)

/-- A character by its code point: digits between braces, or as many as the letter asks for. -/
def codePoint : ReaderM Literal := do
  let letter ← current
  skipOn
  if ← at_ '\x7b' then
    let cs ← collectUntil '\x7d' (← bound)
    skipLast
    if cs.isEmpty || cs.any (hexDigit? · |>.isNone) then refuse
    else
      let c ← charOfHex cs
      pure ⟨c, false⟩
  else
    let cs ← hexDigits (if letter = 'x' then 2 else if letter = 'u' then 4 else 8)
    let c ← charOfHex cs
    pure ⟨c, letter = 'x'⟩

/-! ## Escapes -/

/-- The characters with a meaning in patterns. -/
def isMeta (c : Char) : Bool :=
  ['\\', '.', '+', '*', '?', '(', ')', '|', '[', ']', '\x7b', '\x7d', '^', '$', '#', '&', '-',
    '~'].contains c

/-- The ASCII characters that may be escaped although they mean nothing. -/
def isIdleEscape (c : Char) : Bool :=
  c.toNat < 0x80 && !c.isAlphanum && c != '<' && c != '>'

/-- Where a text occurs first in another. -/
def findText (text : List Char) : List Char → Option Nat
  | [] => none
  | c :: cs => if text.isPrefixOf (c :: cs) then some 0 else (findText text cs).map (· + 1)

/-- A question for a property from the text between braces; with an unequal sign it is negated. -/
def queryOfText (cs : List Char) : PropertyQuery × Bool :=
  let split := fun (n width : Nat) ↦
    PropertyQuery.value (String.ofList (cs.take n)) (String.ofList (cs.drop (n + width)))
  match findText ['!', '='] cs with
  | some n => (split n 2, true)
  | none =>
    match findText [':'] cs with
    | some n => (split n 1, false)
    | none =>
      match findText ['='] cs with
      | some n => (split n 1, false)
      | none => (.name (String.ofList cs), false)

/-- A property behind its letter: one letter, or a text between braces. -/
def property : ReaderM Pattern := do
  let negated := (← current) == 'P'
  skipOn
  if ← at_ '\x7b' then
    let cs ← collectUntil '\x7d' (← bound)
    skip
    let (q, unequal) := queryOfText cs
    pure (.property q (negated != unequal))
  else
    let c ← current
    if c = '\\' then refuse
    else
      skipLast
      pure (.property (.name c.toString) negated)

/-- The special word boundaries that are named between braces. -/
def boundaryOfName? (cs : List Char) : Option Assertion :=
  if cs = "start".toList then some .wordStart
  else if cs = "end".toList then some .wordEnd
  else if cs = "start-half".toList then some .wordStartHalf
  else if cs = "end-half".toList then some .wordEndHalf
  else none

/-- What follows the letter of a word boundary: a name between braces makes it a special one, while
a brace with anything but letters behind it is left for a repetition. -/
def boundaryName : ReaderM Assertion := do
  if ← at_ '\x7b' then
    let s ← get
    skipOn
    let isNameChar := fun (c : Char) ↦ c.isAlpha || c == '-'
    if isNameChar (← current) then
      let cs ← collectWhile isNameChar (← bound)
      if ← at_ '\x7d' then
        skip
        match boundaryOfName? cs with
        | some a => pure a
        | none => refuse
      else refuse
    else
      set s
      pure .wordBoundary
  else pure .wordBoundary

/-- What a backslash and the characters behind it stand for. -/
def escape : ReaderM Pattern := do
  skip
  let c ← current
  if c.isDigit then refuse
  else if c = 'x' ∨ c = 'u' ∨ c = 'U' then do
    let l ← codePoint
    pure (.literal l)
  else if c = 'p' ∨ c = 'P' then property
  else
    skip
    if isMeta c || isIdleEscape c then pure (.literal ⟨c, false⟩)
    else
      match c with
      | 'd' => pure (.letter .digit false)
      | 's' => pure (.letter .space false)
      | 'w' => pure (.letter .word false)
      | 'D' => pure (.letter .digit true)
      | 'S' => pure (.letter .space true)
      | 'W' => pure (.letter .word true)
      | 'a' => pure (.literal ⟨'\x07', false⟩)
      | 'f' => pure (.literal ⟨'\x0c', false⟩)
      | 't' => pure (.literal ⟨'\t', false⟩)
      | 'n' => pure (.literal ⟨'\n', false⟩)
      | 'r' => pure (.literal ⟨'\r', false⟩)
      | 'v' => pure (.literal ⟨'\x0b', false⟩)
      | 'A' => pure (.assertion .textStart)
      | 'z' => pure (.assertion .textEnd)
      | 'b' => do
        let a ← boundaryName
        pure (.assertion a)
      | 'B' => pure (.assertion .notWordBoundary)
      | '<' => pure (.assertion .wordStart)
      | '>' => pure (.assertion .wordEnd)
      | _ => refuse

/-! ## Classes -/

/-- The named class with a name. -/
def namedClass? (cs : List Char) : Option NamedClass :=
  (["alnum", "alpha", "ascii", "blank", "cntrl", "digit", "graph", "lower", "print", "punct",
    "space", "upper", "word", "xdigit"].map String.toList).zip
      [.alnum, .alpha, .ascii, .blank, .cntrl, .digit, .graph, .lower, .print, .punct, .space,
        .upper, .word, .xdigit] |>.lookup cs

/-- A named class, if one comes next: a name between colons between brackets. -/
def named? : ReaderM (Option ClassSet) := fun s ↦
  match s.rest with
  | '[' :: ':' :: cs =>
    let negated := cs.head? == some '^'
    let cs := if negated then cs.tail else cs
    let rest := cs.dropWhile (· != ':')
    match namedClass? (cs.takeWhile (· != ':')), rest with
    | some c, ':' :: ']' :: rest => some (some (.named c negated), { s with rest := rest })
    | _, _ => some (none, s)
  | _ => some (none, s)

/-- A character, a class with a letter or a property inside brackets. -/
def classPiece : ReaderM Pattern := do
  let c ← current
  if c = '\\' then escape
  else
    skip
    pure (.literal ⟨c, false⟩)

/-- A piece as an item of a class. -/
def itemOfPiece : Pattern → ReaderM ClassSet
  | .literal l => pure (.literal l)
  | .letter c negated => pure (.letter c negated)
  | .property q negated => pure (.property q negated)
  | _ => refuse

/-- An item of a class: a piece, or a range between two characters.  A dash before the closing
bracket, or before another dash, does not make a range. -/
def classItem : ReaderM ClassSet := do
  let first ← classPiece
  skipBlanks
  let c ← current
  let second ← peekSecond
  if c ≠ '-' ∨ second = some ']' ∨ second = some '-' then itemOfPiece first
  else
    skipOn
    let last ← classPiece
    match first, last with
    | .literal lo, .literal hi =>
      if lo.char ≤ hi.char then pure (.range lo hi) else refuse
    | _, _ => refuse

/-- The items that may open a class: dashes, and a closing bracket where there is no dash. -/
def openingItems : Nat → ReaderM (List ClassSet)
  | 0 => refuse
  | fuel + 1 => do
    if ← at_ '-' then
      skipOn
      let items ← openingItems fuel
      pure (.literal ⟨'-', false⟩ :: items)
    else pure []

/-- A set with what stands to the left of the operator before it. -/
def joinLeft (left : Option (ClassOp × ClassSet)) (set : ClassSet) : ClassSet :=
  match left with
  | none => set
  | some (op, l) => .operation op l set

mutual

/-- A class between brackets. -/
def bracketed : Nat → ReaderM (Bool × ClassSet)
  | 0 => refuse
  | fuel + 1 => do
    skipOn
    let negated ← at_ '^'
    if negated then skipOn
    let dashes ← if ← at_ '-' then openingItems (← bound) else pure []
    if dashes.isEmpty && (← at_ ']') then
      skipOn
      let set ← classItems fuel none [.literal ⟨']', false⟩]
      pure (negated, set)
    else
      let set ← classItems fuel none dashes
      pure (negated, set)

/-- The rest of a class, given what stands to the left of the last operator and the items read
since, the last one first. -/
def classItems : Nat → Option (ClassOp × ClassSet) → List ClassSet → ReaderM ClassSet
  | 0, _, _ => refuse
  | fuel + 1, left, items => do
    skipBlanks
    let c ← current
    let here := joinLeft left (.ofItems items.reverse)
    if c = '[' then
      match ← named? with
      | some item => classItems fuel left (item :: items)
      | none =>
        let (negated, inside) ← bracketed fuel
        classItems fuel left (.bracketed negated inside :: items)
    else if c = ']' then
      skip
      pure here
    else if ← skipIf ['&', '&'] then classItems fuel (some (.intersection, here)) []
    else if ← skipIf ['-', '-'] then classItems fuel (some (.difference, here)) []
    else if ← skipIf ['~', '~'] then classItems fuel (some (.symmetricDifference, here)) []
    else
      let item ← classItem
      classItems fuel left (item :: items)

end

/-! ## Repetition -/

/-- Whether a piece can be repeated. -/
def isRepeatable : Pattern → Bool
  | .empty => false
  | .flags _ => false
  | _ => true

/-- Whether the mark of a lazy repetition follows, which is taken. -/
def greedy : ReaderM Bool := do
  if ← at_ '?' then
    skip
    pure false
  else pure true

/-- The bounds of a counted repetition, from its opening brace to its closing one. -/
def counts : ReaderM (Nat × Option Nat) := do
  skipOn
  let min ← decimal
  let max ← if ← at_ ',' then do
      skipOn
      if ← at_ '\x7d' then pure none
      else
        let n ← decimal
        pure (some n)
    else pure (some min)
  if ← at_ '\x7d' then
    skipLast
    if max.any (· < min) then refuse else pure (min, max)
  else refuse

/-- The pieces read so far, the last one first, once that one is repeated. -/
def repeatLast (min : Nat) (max : Option Nat) (lazyMark : ReaderM Bool) :
    List Pattern → ReaderM (List Pattern)
  | [] => refuse
  | p :: ps => do
    if isRepeatable p then
      let g ← lazyMark
      pure (.repetition min max g p :: ps)
    else refuse

/-! ## Groups -/

/-- The flag with a letter. -/
def flagOfChar? : Char → Option Flag
  | 'i' => some .ignoreCase
  | 'm' => some .multiLine
  | 's' => some .dotAll
  | 'U' => some .swapGreed
  | 'u' => some .unicode
  | 'R' => some .crlf
  | 'x' => some .extended
  | _ => none

/-- Flags up to a colon or a closing parenthesis: each at most once, and at most one dash, which
switches off what follows it and must not come last. -/
def flags (on : Bool) (last : Bool) (seen : FlagSettings) : List Char → Option (FlagSettings × Nat)
  | [] => none
  | c :: cs =>
    if c = ':' ∨ c = ')' then if last then none else some (seen, 0)
    else if c = '-' then
      if on then (flags false true seen cs).map fun (fs, n) ↦ (fs, n + 1) else none
    else
      match flagOfChar? c with
      | none => none
      | some f =>
        if (seen.lookup f).isSome then none
        else (flags on false (seen ++ [(f, on)]) cs).map fun (fs, n) ↦ (fs, n + 1)

/-- Sets whether the pattern is extended, if some flags say so. -/
def setExtended (fs : FlagSettings) : ReaderM Unit :=
  modify fun s ↦ { s with extended := (fs.lookup .extended).getD s.extended }

/-- A character of the name of a group. -/
def isNameChar (first : Bool) (c : Char) : Bool :=
  if first then c == '_' || isAlphabetic c
  else c == '_' || c == '.' || c == '[' || c == ']' || isAlphanumeric c

/-- The number of the group that is opened. -/
def nextIndex : ReaderM Nat := fun s ↦
  some (s.groupCount + 1, { s with groupCount := s.groupCount + 1 })

/-- The name of a group, up to the angle that closes it. -/
def groupName : ReaderM Unit := fun s ↦
  let name := s.rest.takeWhile (· != '>')
  match name, s.rest.drop name.length with
  | c :: cs, '>' :: rest =>
    if isNameChar true c && cs.all (isNameChar false) && !s.names.contains name then
      some ((), { s with rest := rest, names := name :: s.names })
    else none
  | _, _ => none

/-- What comes behind an opening parenthesis: flags that are set from here on, or a group. -/
def opening : ReaderM (FlagSettings ⊕ GroupKind) := do
  skip
  skipBlanks
  if (← skipIf ['?', '=']) || (← skipIf ['?', '!']) || (← skipIf ['?', '<', '=']) ||
      (← skipIf ['?', '<', '!']) then refuse
  else if (← skipIf ['?', 'P', '<']) || (← skipIf ['?', '<']) then
    let i ← nextIndex
    groupName
    pure (.inr (.capture i))
  else if ← skipIf ['?'] then
    let s ← get
    match flags true false [] s.rest with
    | none => refuse
    | some (fs, n) =>
      modify fun s ↦ { s with rest := s.rest.drop n }
      let close ← current
      skip
      if close = ')' then
        if n = 0 then refuse else pure (.inl fs)
      else pure (.inr (.plain fs))
  else
    let i ← nextIndex
    pure (.inr (.capture i))

mutual

/-- Alternatives, up to a closing parenthesis or the end. -/
def alternatives : Nat → ReaderM (List Pattern)
  | 0 => refuse
  | fuel + 1 => do
    let ps ← pieces fuel []
    let first := Pattern.ofPieces ps.reverse
    if ← at_ '|' then
      skip
      let others ← alternatives fuel
      pure (first :: others)
    else pure [first]

/-- The pieces of an alternative, the last one first, given those read so far. -/
def pieces : Nat → List Pattern → ReaderM (List Pattern)
  | 0, _ => refuse
  | fuel + 1, acc => do
    skipBlanks
    match ← peek with
    | none => pure acc
    | some '|' => pure acc
    | some ')' => pure acc
    | some '(' =>
      match ← opening with
      | .inl fs =>
        setExtended fs
        pieces fuel (.flags fs :: acc)
      | .inr kind =>
        let s ← get
        match kind with
        | .plain fs => setExtended fs
        | .capture _ => pure ()
        let ps ← alternatives fuel
        if ← at_ ')' then
          skip
          modify fun s' ↦ { s' with extended := s.extended }
          pieces fuel (.group kind (.ofAlternatives ps) :: acc)
        else refuse
    | some '[' =>
      let (negated, inside) ← bracketed (← bound)
      pieces fuel (.bracketed negated inside :: acc)
    | some '?' =>
      skip
      pieces fuel (← repeatLast 0 (some 1) greedy acc)
    | some '*' =>
      skip
      pieces fuel (← repeatLast 0 none greedy acc)
    | some '+' =>
      skip
      pieces fuel (← repeatLast 1 none greedy acc)
    | some '\x7b' =>
      let (min, max) ← counts
      pieces fuel (← repeatLast min max greedy acc)
    | some '\\' =>
      let p ← escape
      pieces fuel (p :: acc)
    | some '.' =>
      skip
      pieces fuel (.dot :: acc)
    | some '^' =>
      skip
      pieces fuel (.assertion .lineStart :: acc)
    | some '$' =>
      skip
      pieces fuel (.assertion .lineEnd :: acc)
    | some c =>
      skip
      pieces fuel (.literal ⟨c, false⟩ :: acc)

end

end Reader

/-- Reads a pattern. -/
def Pattern.ofText? (s : String) : Option Pattern :=
  let cs := s.toList
  match Reader.alternatives (2 * cs.length + 2) ⟨cs, false, 0, []⟩ with
  | some (ps, s) =>
    let p := Pattern.ofAlternatives ps
    if s.rest.isEmpty && p.depth ≤ maxPatternDepth then some p else none
  | none => none

end Regex

end RequestCondition

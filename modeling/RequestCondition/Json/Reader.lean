import RequestCondition.Json.Numeral

/-!
# Reading JSON

`Json.parse` reads a text as one JSON value with blanks around it.  A value that starts may hold
values at most 127 levels below it; that bound is also what the recursion runs on.  Within an array
or an object it runs on the number of characters left, as every item takes at least one.

The first thing that is wrong decides the error.
-/

set_option autoImplicit false

namespace RequestCondition

namespace Json

/-- How many arrays and objects may be open at once. -/
def maxNesting : Nat := 127

def isSpace (c : Char) : Bool := c == ' ' || c == '\n' || c == '\t' || c == '\r'

def skipSpace (cs : List Char) : List Char := cs.dropWhile isSpace

/-- Reads the rest of a word. -/
def word (value : Json) : List Char → List Char → Except JsonError (Json × List Char)
  | [], cs => .ok (value, cs)
  | _ :: _, [] => .error .endOfInput
  | w :: ws, c :: cs => if w == c then word value ws cs else .error .unexpectedCharacter

/-! ## Strings -/

/-- The value of a hexadecimal digit. -/
def hexValue? (c : Char) : Option Nat :=
  if '0' ≤ c ∧ c ≤ '9' then some (c.toNat - '0'.toNat)
  else if 'a' ≤ c ∧ c ≤ 'f' then some (c.toNat - 'a'.toNat + 10)
  else if 'A' ≤ c ∧ c ≤ 'F' then some (c.toNat - 'A'.toNat + 10)
  else none

/-- Four hexadecimal digits.  A text of less than four bytes has ended too early. -/
def hexCode (cs : List Char) : Except JsonError (Nat × List Char) :=
  if utf8Length cs < 4 then .error .endOfInput
  else
    match cs.take 4 |>.mapM hexValue? with
    | some ds => .ok (ds.foldl (fun n d ↦ 16 * n + d) 0, cs.drop 4)
    | none => .error .badEscape

def isLeading (n : Nat) : Bool := 0xD800 ≤ n && n ≤ 0xDBFF

def isTrailing (n : Nat) : Bool := 0xDC00 ≤ n && n ≤ 0xDFFF

/-- A code point behind `\u`: one code, or the two halves of a pair. -/
def codePoint (cs : List Char) : Except JsonError (Char × List Char) := do
  let (n, cs) ← hexCode cs
  if isTrailing n then .error .badEscape
  else if !isLeading n then .ok (Char.ofNat n, cs)
  else
    match cs with
    | [] | ['\\'] => .error .endOfInput
    | '\\' :: 'u' :: cs => do
      let (m, cs) ← hexCode cs
      if isTrailing m then
        .ok (Char.ofNat ((n - 0xD800) * 0x400 + (m - 0xDC00) + 0x10000), cs)
      else .error .badEscape
    | _ => .error .badEscape

/-- The character that an escape stands for, read behind the backslash. -/
def escape : List Char → Except JsonError (Char × List Char)
  | [] => .error .endOfInput
  | '"' :: cs => .ok ('"', cs)
  | '\\' :: cs => .ok ('\\', cs)
  | '/' :: cs => .ok ('/', cs)
  | 'b' :: cs => .ok ('\x08', cs)
  | 'f' :: cs => .ok ('\x0c', cs)
  | 'n' :: cs => .ok ('\n', cs)
  | 'r' :: cs => .ok ('\r', cs)
  | 't' :: cs => .ok ('\t', cs)
  | 'u' :: cs => codePoint cs
  | _ => .error .badEscape

/-- Reads a string behind its quote; `steps` bounds the number of its characters. -/
def textFrom : Nat → List Char → Except JsonError (List Char × List Char)
  | 0, _ => .error .endOfInput
  | _ + 1, [] => .error .endOfInput
  | _ + 1, '"' :: cs => .ok ([], cs)
  | steps + 1, '\\' :: cs => do
    let (c, cs) ← escape cs
    let (text, cs) ← textFrom steps cs
    pure (c :: text, cs)
  | steps + 1, c :: cs =>
    if c < ' ' then .error .controlCharacter
    else do
      let (text, cs) ← textFrom steps cs
      pure (c :: text, cs)

/-- Reads a string behind its quote. -/
def text (cs : List Char) : Except JsonError (String × List Char) := do
  let (t, cs) ← textFrom (cs.length + 1) cs
  pure (String.ofList t, cs)

/-! ## Arrays and objects -/

/-- Goes on behind an item: to the next one, or behind the closing bracket. -/
def separator (closing : Char) (cs : List Char) : Except JsonError (Bool × List Char) :=
  match skipSpace cs with
  | [] => .error .endOfInput
  | c :: cs =>
    if c == closing then .ok (false, cs)
    else if c != ',' then .error .unexpectedCharacter
    else
      match skipSpace cs with
      | [] => .error .endOfInput
      | d :: ds => if d == closing then .error .unexpectedCharacter else .ok (true, d :: ds)

/-- Reads items up to the closing bracket; `steps` bounds their number. -/
def items {α : Type} (item : List Char → Except JsonError (α × List Char)) (closing : Char) :
    Nat → List Char → Except JsonError (List α × List Char)
  | 0, _ => .error .endOfInput
  | steps + 1, cs => do
    let (a, cs) ← item cs
    let (more, cs) ← separator closing cs
    if more then
      let (as, cs) ← items item closing steps cs
      pure (a :: as, cs)
    else pure ([a], cs)

/-- Reads what stands between brackets, behind the opening one. -/
def enclosed {α : Type} (item : List Char → Except JsonError (α × List Char)) (closing : Char)
    (cs : List Char) : Except JsonError (List α × List Char) :=
  match skipSpace cs with
  | [] => .error .endOfInput
  | c :: rest =>
    if c == closing then .ok ([], rest)
    else items item closing (rest.length + 1) (c :: rest)

/-- Reads a member: a name, a colon and a value. -/
def member (value : List Char → Except JsonError (Json × List Char)) :
    List Char → Except JsonError ((String × Json) × List Char)
  | '"' :: cs => do
    let (name, cs) ← text cs
    match skipSpace cs with
    | ':' :: cs => do
      let (v, cs) ← value cs
      pure ((name, v), cs)
    | [] => .error .endOfInput
    | _ => .error .unexpectedCharacter
  | [] => .error .endOfInput
  | _ => .error .unexpectedCharacter

/-! ## Values -/

/-- Reads a value that holds nothing deeper, or hands over to what reads arrays and objects. -/
def valueWith (array object : List Char → Except JsonError (Json × List Char))
    (cs : List Char) : Except JsonError (Json × List Char) :=
  match skipSpace cs with
  | [] => .error .endOfInput
  | 'n' :: cs => word .null ['u', 'l', 'l'] cs
  | 't' :: cs => word (.boolean true) ['r', 'u', 'e'] cs
  | 'f' :: cs => word (.boolean false) ['a', 'l', 's', 'e'] cs
  | '"' :: cs => do
    let (s, cs) ← text cs
    pure (.string s, cs)
  | '[' :: cs => array cs
  | '\x7b' :: cs => object cs
  | '-' :: cs => do
    let (n, cs) ← JsonNumber.read true cs
    pure (.number n, cs)
  | c :: cs =>
    if (digitValue? c).isSome then do
      let (n, cs) ← JsonNumber.read false (c :: cs)
      pure (.number n, cs)
    else .error .unexpectedCharacter

/-- Reads a value that has so many levels below it. -/
def value : Nat → List Char → Except JsonError (Json × List Char)
  | 0 => valueWith (fun _ ↦ .error .nestedTooDeeply) (fun _ ↦ .error .nestedTooDeeply)
  | depth + 1 =>
    valueWith
      (fun cs ↦ do
        let (vs, cs) ← enclosed (value depth) ']' cs
        pure (.array vs, cs))
      (fun cs ↦ do
        let (ms, cs) ← enclosed (member (value depth)) '\x7d' cs
        pure (.object (ms.foldl (fun acc m ↦ insertMember m.1 m.2 acc) []), cs))

/-- Reads a text as JSON. -/
def parse (s : String) : Except JsonError Json := do
  let (v, cs) ← value maxNesting s.toList
  if (skipSpace cs).isEmpty then pure v else .error .trailingCharacters

end Json

/-- Reads a text as a JSON number. -/
def JsonNumber.ofText? (s : String) : Option JsonNumber :=
  match Json.parse s with
  | .ok (.number n) => some n
  | _ => none

end RequestCondition

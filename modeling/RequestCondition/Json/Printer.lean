import RequestCondition.Json.Basic

/-!
# Writing JSON

JSON is written in one of two layouts: on one line without any blanks, or with every item and every
member on a line of its own, two blanks deeper than what it belongs to.  Nothing stands between the
brackets of an empty array or object in either layout.

In a string, quotes, backslashes and the control characters below the blank are escaped, and
everything else stands for itself.
-/

set_option autoImplicit false

namespace RequestCondition

namespace Json

/-- A digit below sixteen. -/
def hexDigit (n : Nat) : Char := (Nat.toDigits 16 n).headD '0'

/-- The form of a character in a string. -/
def escaped (c : Char) : List Char :=
  if c = '"' ∨ c = '\\' then ['\\', c]
  else if ' ' ≤ c then [c]
  else if c = '\x08' then ['\\', 'b']
  else if c = '\t' then ['\\', 't']
  else if c = '\n' then ['\\', 'n']
  else if c = '\x0c' then ['\\', 'f']
  else if c = '\r' then ['\\', 'r']
  else ['\\', 'u', '0', '0', hexDigit (c.toNat / 16), hexDigit (c.toNat % 16)]

/-- A string in its quotes. -/
def quotedText (s : String) : String :=
  String.ofList ('"' :: s.toList.flatMap escaped ++ ['"'])

/-- How the insides of arrays and objects are laid out. -/
inductive Layout where
  | compact
  /-- Over lines, so many levels deep. -/
  | lines (depth : Nat)

namespace Layout

/-- The layout one level deeper. -/
def deeper : Layout → Layout
  | compact => compact
  | lines depth => lines (depth + 1)

/-- What stands before an item, or before the closing bracket. -/
def lineStart : Layout → String
  | compact => ""
  | lines depth => "\n" ++ String.ofList (List.replicate (2 * depth) ' ')

/-- What stands between a name and its value. -/
def colon : Layout → String
  | compact => ":"
  | lines _ => ": "

/-- Items between brackets. -/
def enclose (layout : Layout) (opening closing : String) (items : List String) : String :=
  if items.isEmpty then opening ++ closing
  else
    opening ++ ",".intercalate (items.map (layout.deeper.lineStart ++ ·)) ++ layout.lineStart ++
      closing

end Layout

mutual

/-- The text of a value. -/
def write (layout : Layout) : Json → String
  | .null => "null"
  | .boolean b => if b then "true" else "false"
  | .number n => n.text
  | .string s => quotedText s
  | .array items => layout.enclose "[" "]" (writeItems layout.deeper items)
  | .object members => layout.enclose "\x7b" "\x7d" (writeMembers layout.deeper members)

def writeItems (layout : Layout) : List Json → List String
  | [] => []
  | v :: vs => write layout v :: writeItems layout vs

def writeMembers (layout : Layout) : List (String × Json) → List String
  | [] => []
  | (name, v) :: rest =>
    (quotedText name ++ layout.colon ++ write layout v) :: writeMembers layout rest

end

/-- The text on one line. -/
def compact (j : Json) : String := j.write .compact

/-- The text over lines. -/
def pretty (j : Json) : String := j.write (.lines 0)

end Json

end RequestCondition

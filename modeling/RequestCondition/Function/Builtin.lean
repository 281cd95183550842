import RequestCondition.FileSystem.Basic
import RequestCondition.Function.Table
import RequestCondition.Network.Block
import RequestCondition.Text.Percent
import RequestCondition.Wildcard

/-!
# The built-in functions

Five functions of a text, two of a file; six tests of a file or a text; four tests of two texts.
All of them look at the texts of their arguments.

The answers about files come from the file system that the table is made for.  A file that cannot
be read counts as empty, with a warning.

The table is made from names, numbers of arguments and bodies (`Builtin.bodies`).  That no body asks
for more arguments than it has to be given is `Builtin.bodies_complete`; the table cannot be made
without it.
-/

set_option autoImplicit false

namespace RequestCondition

namespace Builtin

/-! ## Texts -/

/-- Whether a text is none of the words for no. -/
def isTrueWord (s : String) : Bool :=
  let word := (trimBlanks s.toList).map Char.toLower
  !(["", "0", "off", "false", "no"].contains (String.ofList word))

/-- The text that a percent-coded one stands for. -/
def unescape (s : String) : Except EvalError Value :=
  let bytes := utf8Bytes s.toList
  if Percent.lacksDigits bytes then .error (.badPercentEncoding s)
  else
    match textOfBytes? (Percent.decode bytes) with
    | some t => .ok (.string t)
    | none => .error (.notUtf8 s)

/-- Whether a text is an address in a network. -/
def inNetwork (address network : String) : Except EvalError Value :=
  match Block.containsText? address network with
  | some b => .ok (.boolean b)
  | none => .error (.badNetwork network)

/-! ## Files -/

/-- The text of a file. -/
def fileText (fs : FileSystem) (path : String) : Reply :=
  let failed := fun (e : FileError) ↦
    (⟨.ok (.string ""), [⟨.warn, "file(" ++ quoted path ++ ") failed: " ++ e.message⟩]⟩ : Reply)
  match fs.read path with
  | .error e => failed e
  | .ok bytes =>
    match textOfBytes? bytes with
    | some s => .ok (.string s)
    | none => failed .notUtf8

/-- The size of a regular file, and zero for anything else. -/
def fileSize (fs : FileSystem) (path : String) : Nat :=
  match fs.status? path with
  | some (.file size) => size
  | _ => 0

def isFile (fs : FileSystem) (path : String) : Bool :=
  match fs.status? path with
  | some (.file _) => true
  | _ => false

/-! ## The table -/

/-- Asks for one argument, and replies to its text. -/
def ofText (f : String → Reply) (args : List Value) : Option Reply :=
  args[0]?.map fun v ↦ f v.text

/-- Asks for two arguments, and replies to their texts. -/
def ofTexts (f : String → String → Reply) (args : List Value) : Option Reply :=
  args[0]?.bind fun v ↦ args[1]?.map fun w ↦ f v.text w.text

@[simp] theorem ofText_singleton (f : String → Reply) (v : Value) :
    ofText f [v] = some (f v.text) := rfl

@[simp] theorem ofTexts_pair (f : String → String → Reply) (v w : Value) :
    ofTexts f [v, w] = some (f v.text w.text) := rfl

/-- A value for the text of an argument. -/
def value (f : String → Value) : List Value → Option Reply := ofText fun s ↦ .ok (f s)

/-- A test of the text of an argument. -/
def test (p : String → Bool) : List Value → Option Reply := value fun s ↦ .boolean (p s)

/-- A test of the texts of two arguments. -/
def test₂ (p : String → String → Bool) : List Value → Option Reply :=
  ofTexts fun s t ↦ .ok (.boolean (p s t))

/-- The built-in functions by name. -/
def bodies (fs : FileSystem) : List (String × FunctionBody) :=
  [("tolower", ⟨1, value fun s ↦ .string (lowercase s)⟩),
    ("toupper", ⟨1, value fun s ↦ .string (uppercase s)⟩),
    ("strlen", ⟨1, value fun s ↦ .number (.ofNat s.toList.length)⟩),
    ("escape", ⟨1, value fun s ↦ .string (Percent.encode s)⟩),
    ("unescape", ⟨1, ofText fun s ↦ .ofExcept (unescape s)⟩),
    ("file", ⟨1, ofText (fileText fs)⟩),
    ("filesize", ⟨1, value fun s ↦ .number (.ofNat (fileSize fs s))⟩),
    ("-n", ⟨1, test (· != "")⟩),
    ("-z", ⟨1, test (· == "")⟩),
    ("-T", ⟨1, test isTrueWord⟩),
    ("-e", ⟨1, test fun s ↦ (fs.status? s).isSome⟩),
    ("-f", ⟨1, test (isFile fs)⟩),
    ("-d", ⟨1, test fun s ↦ fs.status? s == some .directory⟩),
    ("-s", ⟨1, test fun s ↦ 0 < fileSize fs s⟩),
    ("-L", ⟨1, test fs.isLink⟩),
    ("-strmatch", ⟨2, test₂ fun s p ↦ Wildcard.isMatch p s false false⟩),
    ("-strcmatch", ⟨2, test₂ fun s p ↦ Wildcard.isMatch p s true false⟩),
    ("-fnmatch", ⟨2, test₂ fun s p ↦ Wildcard.isMatch p s false true⟩),
    ("-ipmatch", ⟨2, ofTexts fun s t ↦ .ofExcept (inNetwork s t)⟩)]

theorem ofText_complete (f : String → Reply) : (FunctionBody.mk 1 (ofText f)).Complete := by
  rintro (_ | ⟨v, _⟩) h
  · cases h
  · rfl

theorem ofTexts_complete (f : String → String → Reply) :
    (FunctionBody.mk 2 (ofTexts f)).Complete := by
  rintro (_ | ⟨v, _ | ⟨w, _⟩⟩) h
  · cases h
  · cases h
  · rfl

/-- The built-in functions find all arguments that they ask for. -/
theorem bodies_complete (fs : FileSystem) : ∀ entry ∈ bodies fs, entry.2.Complete := by
  simp only [bodies, value, test, test₂, List.forall_mem_cons, ofText_complete, ofTexts_complete,
    true_and]
  exact List.forall_mem_nil _

/-- The built-in functions. -/
def functions (fs : FileSystem) : List Function :=
  (bodies fs).pmap (fun entry h ↦ ⟨entry.1, entry.2, h⟩) (bodies_complete fs)

/-- The functions that look at files. -/
def fileFunctions : List String := ["file", "filesize", "-e", "-f", "-d", "-s", "-L"]

/-- The path that a call asks about. -/
def path? (name : String) : List Value → Option String
  | [v] => if fileFunctions.contains name then some v.text else none
  | _ => none

end Builtin

/-- The table of the built-in functions. -/
def FunctionTable.builtin (fs : FileSystem) : FunctionTable := .ofFunctions (Builtin.functions fs)

theorem FunctionTable.mem_bodies_of_find? {fs : FileSystem} {name : String} {f : Function}
    (h : (builtin fs).find? name = some f) : (name, f.body) ∈ Builtin.bodies fs := by
  obtain ⟨hf, rfl⟩ := mem_of_find?_ofFunctions h
  obtain ⟨entry, hentry, rfl⟩ := List.mem_pmap.1 hf
  exact hentry

end RequestCondition

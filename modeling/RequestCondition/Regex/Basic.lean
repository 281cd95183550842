import RequestCondition.Regex.Reader
import RequestCondition.Regex.Search

/-!
# The engine at hand

`Regex.Engine.standard` is the engine that conditions are run with.  It reads a pattern, gives it a
meaning under the flags that it starts with, turns that into a program and searches with it.

It knows the syntax of patterns, the flags and the classes, the general categories, the scripts and
the properties of characters that are true or false.  There are two things that it does not have.
Properties with a value of their own other than these, which are the age of a character and its
place in the breaking of graphemes, words and sentences, are unknown to it, so it cannot use a
pattern that asks for one.  And it sets no limit to the size of a program.  Nothing that is said
about conditions depends on the engine, so nothing depends on these.
-/

set_option autoImplicit false

namespace RequestCondition

namespace Regex

/-- The meaning of the text of a pattern. -/
def node? (pattern : String) (ignoreCase : Bool) : Option Node :=
  (Pattern.ofText? pattern).bind (Node.ofPattern? ignoreCase)

/-- The engine of this library. -/
def Engine.standard : Engine where
  compiles pattern ignoreCase := (node? pattern ignoreCase).isSome
  find? pattern ignoreCase text :=
    (node? pattern ignoreCase).bind fun n ↦ (Program.ofNode n).find? text
  compiles_empty ignoreCase := by cases ignoreCase <;> decide

end Regex

end RequestCondition

import RequestCondition.Unicode.CaseMap

/-!
# Characters that change with case

A character *changes* under a mapping when a text of it alone comes out as another text.  For the
lower and the upper case these are the characters that the runs of the mapping cover.  For title
case and for full folding, which have no runs of their own, they follow from the upper case and
from simple folding, and the exceptions are listed.
-/

set_option autoImplicit false

namespace RequestCondition

namespace CaseMap

/-- The code points that a run maps. -/
def Run.codes (r : Run) : List Nat :=
  (List.range ((r.last - r.first) / r.step + 1)).map fun i ↦ r.first + i * r.step

/-- The characters that runs map. -/
def changed (runs : List Run) : CharSet := .ofCodes (runs.flatMap Run.codes)

end CaseMap

namespace CaseChange

/-! ## Exceptions -/

/-- Characters that title case changes and upper case does not. -/
def otherTitlecased : CharSet := .ofText
  "1c4 1c7 1ca 1f1"

/-- Characters that upper case changes and title case does not. -/
def noTitlecased : CharSet := .ofText
  "1c5 1c8 1cb 1f2 10d0-10fa 10fd-10ff 1f88-1f8f 1f98-1f9f 1fa8-1faf 1fbc 1fcc 1ffc"

/-- Characters that full folding changes and simple folding does not. -/
def otherCasefolded : CharSet := .ofText
  "df 130 149 587 13f8-13fd 1e9a 1f80-1f87 1f90-1f97 1fa0-1fa7 1fb2-1fb4 1fb7 1fc2-1fc4 1fc7
  1ff2-1ff4 1ff7 ab70-abbf fb00-fb05 fb13-fb17"

/-- Characters that others fold to here and that full folding leaves alone. -/
def noCasefolded : CharSet := .ofText
  "13a0-13f5 1fbe 1fd3 1fe3"

/-! ## Properties -/

def lowercased : CharSet := CaseMap.changed CaseMap.lowerRuns

def uppercased : CharSet := CaseMap.changed CaseMap.upperRuns

def titlecased : CharSet := (uppercased.union otherTitlecased).diff noTitlecased

def casefolded : CharSet :=
  ((CaseMap.changed CaseMap.foldRuns).union otherCasefolded).diff noCasefolded

/-- The characters that one of the three cases changes. -/
def casemapped : CharSet := lowercased.union (uppercased.union titlecased)

/-- The names of the properties, in lower case without separators. -/
def names : List (List String × (Unit → CharSet)) :=
  [
    (["cwcf", "changeswhencasefolded"], fun _ ↦ casefolded),
    (["cwcm", "changeswhencasemapped"], fun _ ↦ casemapped),
    (["cwl", "changeswhenlowercased"], fun _ ↦ lowercased),
    (["cwt", "changeswhentitlecased"], fun _ ↦ titlecased),
    (["cwu", "changeswhenuppercased"], fun _ ↦ uppercased)
  ]

/-- The characters that have the property with a name. -/
def ofName? (name : String) : Option CharSet :=
  (names.find? fun (ns, _) ↦ ns.contains name).map fun (_, s) ↦ s ()

end CaseChange

end RequestCondition

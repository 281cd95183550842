/-!
# Regex engines

Conditions do not interpret regexes on their own.  They hand a pattern to an engine and ask two
things of it: whether the pattern can be used, and what it finds in a text.  A `Regex.Engine` is
whatever answers these questions, so everything about conditions is a function of the engine as it
is of the variables and of the file system.

What an engine finds is the first match, group by group.  A group may have taken no part in the
match, as `(b)` in `a|(b)` has not where the text is `a`; the engine tells this apart from a group
that has taken the empty text.

One law is asked of an engine, that it can use the empty pattern.  It is what makes it possible to
go on behind `=~` at all.
-/

set_option autoImplicit false

namespace RequestCondition

namespace Regex

/-- What the groups of a match have taken, the whole match first; `none` for a group that took no
part. -/
abbrev Groups := List (Option String)

/-- What conditions ask about regexes. -/
structure Engine where
  /-- Whether a pattern can be used, with or without regard to case. -/
  compiles : (pattern : String) → (ignoreCase : Bool) → Bool
  /-- The first match of a pattern in a text. -/
  find? : (pattern : String) → (ignoreCase : Bool) → (text : String) → Option Groups
  /-- The empty pattern can be used. -/
  compiles_empty : ∀ ignoreCase, compiles "" ignoreCase = true

/-- An engine for which case makes no difference to whether a pattern can be used. -/
def Engine.CompilesAlike (engine : Engine) : Prop :=
  ∀ pattern ignoreCase ignoreCase',
    engine.compiles pattern ignoreCase = engine.compiles pattern ignoreCase'

end Regex

end RequestCondition

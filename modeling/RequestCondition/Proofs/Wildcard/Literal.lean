import RequestCondition.Proofs.Wildcard.Matching
import RequestCondition.Proofs.Wildcard.Reading

/-!
# Literal text in a pattern

Every text can be put into a pattern so that it is matched literally: `escape` writes a backslash
before each of the four characters that a pattern gives a meaning to outside of classes.  The rest
of the signs, such as a closing bracket or a dash, mean something only in a class, and no class is
open in escaped text, since every bracket in it has lost its meaning.

So reading a pattern is compositional behind escaped text: `compile_escape_append` gives the tokens
of `escape s ++ p` as one literal for each character of `s`, followed by the tokens of `p`, whatever
`p` starts with.  Literals take a text of their own length and nothing but the characters they name,
so no star of `p` gets to take any of them: `isMatch_escape_append`.

Only matching as it is written is like this.  Without regard to case a text and its pattern may be
matched by others that differ from them, and their forms in lower case may differ in length.
-/

set_option autoImplicit false

namespace RequestCondition

namespace Wildcard

variable {pathname : Bool} {ts : List Token} {s cs : List Char}

/-! ## Escaped text -/

/-- How a character is written in a pattern that is to match it literally. -/
def escapeChar (c : Char) : List Char := if c ∈ openers then ['\\', c] else [c]

/-- How a text is written in a pattern that is to match it literally. -/
def escape (s : String) : String := String.ofList (s.toList.flatMap escapeChar)

theorem compile_escapeChar_append (c : Char) (cs : List Char) :
    compile (escapeChar c ++ cs) = .literal c :: compile cs := by
  rw [escapeChar]
  split
  · exact compile_escape
  · next hc => exact compile_plain hc

/-- **Escaped text is read as literals**, and what stands behind it is read on its own. -/
theorem compile_escape_append (s p : List Char) :
    compile (s.flatMap escapeChar ++ p) = s.map .literal ++ compile p := by
  induction s with
  | nil => rfl
  | cons c s ih =>
    rw [List.flatMap_cons, List.append_assoc, compile_escapeChar_append, ih]
    rfl

/-! ## Matching literals

A row of literals is the simplest case of tokens that each take one character, so what is known
about those between two stars applies to it. -/

/-- Literals take the text they are made of, slashes included, and no other. -/
theorem takesEach_literals_iff : TakesEach pathname (s.map .literal) cs ↔ cs = s := by
  rw [TakesEach, List.forall₂_map_left_iff]
  simp only [Token.accepts, beq_iff_eq, List.forall₂_eq_eq_eq]
  exact eq_comm

/-- Literals in front of other tokens take the beginning of the text. -/
theorem cuts_literals_append_iff :
    Cuts pathname (s.map .literal ++ ts) cs ↔ ∃ rest, cs = s ++ rest ∧ Cuts pathname ts rest := by
  have hself : TakesEach pathname (s.map .literal) s := takesEach_literals_iff.2 rfl
  rw [cuts_append_iff hself]
  constructor
  · rintro ⟨es, rest, rfl, hes, hrest⟩
    obtain rfl := takesEach_literals_iff.1 hes
    exact ⟨rest, rfl, hrest⟩
  · rintro ⟨rest, rfl, hrest⟩
    exact ⟨s, rest, rfl, hself, hrest⟩

/-- **Escaped text is matched literally.**  In front of any pattern, it asks of a text to start with
it, and leaves the rest of the text to the rest of the pattern; on its own it matches itself alone.
-/
theorem isMatch_escape_append (s p t : String) (pathname : Bool) :
    (isMatch (escape s ++ p) t false pathname = true ↔
      ∃ rest, t = s ++ rest ∧ isMatch p rest false pathname = true) ∧
    (isMatch (escape s) t false pathname = true ↔ t = s) := by
  have hmatch (p t : String) : isMatch p t false pathname = true ↔
      Cuts pathname (compile p.toList) t.toList := matchTokens_eq_true_iff
  have happend (p : String) : isMatch (escape s ++ p) t false pathname = true ↔
      ∃ rest, t = s ++ rest ∧ isMatch p rest false pathname = true := by
    rw [hmatch, escape, String.toList_append, String.toList_ofList, compile_escape_append,
      cuts_literals_append_iff]
    constructor
    · rintro ⟨rest, ht, hrest⟩
      refine ⟨String.ofList rest, String.toList_inj.1 ?_, (hmatch _ _).2 ?_⟩
      · rw [ht, String.toList_append, String.toList_ofList]
      · rwa [String.toList_ofList]
    · rintro ⟨rest, rfl, hrest⟩
      exact ⟨rest.toList, String.toList_append, (hmatch _ _).1 hrest⟩
  refine ⟨happend p, ?_⟩
  -- on its own, escaped text stands in front of the empty pattern, which leaves nothing
  rw [← String.append_empty (s := escape s), happend]
  have hempty (rest : String) : isMatch "" rest false pathname = true ↔ rest = "" := by
    rw [hmatch, ← String.toList_eq_nil_iff]
    exact cuts_nil_iff
  simp only [hempty, exists_eq_right, String.append_empty]

/-- The first bracket opens no class, and the star behind it takes only itself. -/
example : isMatch (escape "[a*" ++ "[a-c]?") "[a*b/" false false = true := by decide +kernel

end Wildcard

end RequestCondition

import RequestCondition.Proofs.Lexer.Reading
import RequestCondition.Proofs.Parser.Phrase

/-!
# Where tokens stand

A token stands among the tokens of a condition, inside a string, or in a reference, and there at the
name or behind it.  `Place.Step` says how a token leads from one place to another.  That keeps track
of what is open in the way that a lexer does with its modes, and says little about which tokens are
a condition.

But a condition starts and ends outside of strings and references (`Place.of_disjunction`).  So
where some tokens lead, those that make a condition of them lead back.

Places are a finite automaton in front of the grammar.  It is all that a writer of tokens has to
know: how a token is spelled depends on its place, and so does what may stand behind it.  The
grammar itself, with its groups and lists, need not be looked at again.

The proof is one line for each rule of the grammar.  Phrases that are put side by side with a token
between them lead where they should by `Steps.join`, and those that stand between two tokens by
`Steps.wrap`.  Strings and references are the only phrases that leave the place on the way, and they
come back to it.
-/

set_option autoImplicit false

namespace RequestCondition

/-- Where a token stands.  A reference knows whether a string is around it. -/
inductive Place where
  | condition
  | string
  | name (inString : Bool)
  | named (inString : Bool)

namespace Place

open Phrase

/-- What is around a reference. -/
def outside : Bool → Place
  | false => condition
  | true => string

/-- The token `t` leads from one place to another. -/
inductive Step : Place → Token → Place → Prop
  | plain {t : Token} (h : t.isPlain = true) : Step condition t condition
  | openString : Step condition .strBegin string
  | text (s : String) : Step string (.strText s) string
  | backref (k : Nat) : Step string (.backref k) string
  | closeString : Step string .strEnd condition
  | openReference (b : Bool) : Step (outside b) .varBegin (.name b)
  | name (b : Bool) (name : String) : Step (.name b) (.identifier name) (.named b)
  | argument (b : Bool) (arg : String) : Step (.named b) (.varArg arg) (.named b)
  | closeReference (b : Bool) : Step (.named b) .varEnd (outside b)

/-- Tokens lead from one place to another. -/
inductive Steps : Place → List Token → Place → Prop
  | nil (P : Place) : Steps P [] P
  | cons {P Q R : Place} {t : Token} {ts : List Token} (h : Step P t Q) (h' : Steps Q ts R) :
      Steps P (t :: ts) R

variable {P Q R : Place} {t : Token} {ts us : List Token}

namespace Steps

theorem one (h : Step P t Q) : Steps P [t] Q := .cons h (.nil Q)

theorem trans (h : Steps P ts Q) (h' : Steps Q us R) : Steps P (ts ++ us) R := by
  induction h with
  | nil P => exact h'
  | cons h _ ih => exact .cons h (ih h')

theorem split : ∀ {ts : List Token} {P : Place}, Steps P (ts ++ us) R →
    ∃ Q, Steps P ts Q ∧ Steps Q us R
  | [], P, h => ⟨P, .nil P, h⟩
  | _ :: _, _, .cons h h' => by
    obtain ⟨Q, hts, hus⟩ := h'.split
    exact ⟨Q, .cons h hts, hus⟩

/-- The last token leads to where all of them lead. -/
theorem last (h : Steps P ts Q) (ht : ts.getLast? = some t) : ∃ P', Step P' t Q := by
  induction h with
  | nil P => cases ht
  | @cons P Q R u us hu hus ih =>
    cases hus with
    | nil _ =>
      cases ht
      exact ⟨P, hu⟩
    | cons _ _ => exact ih ht

theorem join (h : Steps condition ts condition) (ht : t.isPlain = true)
    (h' : Steps condition us condition) : Steps condition (ts ++ t :: us) condition :=
  h.trans (.cons (.plain ht) h')

theorem wrap {u : Token} (ht : t.isPlain = true) (h : Steps condition ts condition)
    (hu : u.isPlain = true) : Steps condition (t :: ts ++ [u]) condition :=
  .cons (.plain ht) (h.trans (.one (.plain hu)))

end Steps

/-! ## Phrases

A reference leads back to what is around it, which it knows; parts of a string lead nowhere else. -/

variable {o : ParseOptions}

/-- A reference leads from its name to what is around it. -/
theorem of_reference {ref : VarRef} (h : Reference ts ref) (b : Bool) :
    Steps (.name b) ts (outside b) := by
  cases h with
  | plain name => exact .cons (.name b name) (.one (.closeReference b))
  | argument name arg =>
    exact .cons (.name b name) (.cons (.argument b arg) (.one (.closeReference b)))

/-- The parts of a string stay in it. -/
theorem of_parts {ps : List StringPart} (h : Parts ts ps) : Steps string ts string := by
  induction h with
  | nil => exact .nil string
  | text s _ ih => exact .cons (.text s) ih
  | backref k _ ih => exact .cons (.backref k) ih
  | reference hr _ ih => exact .cons (.openReference true) ((of_reference hr true).trans ih)

/-- A regex literal is a token of a condition. -/
theorem of_usable {r : RegexLiteral} (h : Usable o t r) : t.isPlain = true := by
  cases h
  rfl

mutual

/-- **A condition starts and ends outside of strings and references.** -/
theorem of_disjunction : ∀ {n ts e}, Disjunction o n ts e → Steps condition ts condition
  | _, _, _, .one h => of_conjunction h
  | _, _, _, .or h h' => (of_disjunction h).join rfl (of_conjunction h')

theorem of_conjunction : ∀ {n ts e}, Conjunction o n ts e → Steps condition ts condition
  | _, _, _, .one h => of_negation h
  | _, _, _, .and h h' => (of_conjunction h).join rfl (of_negation h')

theorem of_negation : ∀ {n ts e}, Negation o n ts e → Steps condition ts condition
  | _, _, _, .comparison h => of_comparison h
  | _, _, _, .not h => .cons (.plain rfl) (of_negation h)

theorem of_comparison : ∀ {n ts e}, Comparison o n ts e → Steps condition ts condition
  | _, _, _, .concat h => of_concat h
  | _, _, _, .test h => of_test h

theorem of_test : ∀ {n ts e}, Test o n ts e → Steps condition ts condition
  | _, _, _, .clientMatch h => .cons (.plain rfl) (.one (.plain (of_usable h)))
  | _, _, _, .clientBlock h | _, _, _, .unaryTest _ h => .cons (.plain rfl) (of_concat h)
  | _, _, _, .compare _ h h' | _, _, _, .binaryTest _ h h' => (of_concat h).join rfl (of_concat h')
  | _, _, _, .isMatch h hr | _, _, _, .isNoMatch h hr =>
    (of_concat h).join rfl (.one (.plain (of_usable hr)))
  | _, _, _, .isIn h h' =>
    ((of_concat h).join rfl (.cons (.plain rfl) (of_items h'))).trans (.one (.plain rfl))

theorem of_items : ∀ {n ts es}, Items o n ts es → Steps condition ts condition
  | _, _, _, .nil => .nil condition
  | _, _, _, .last h => of_concat h
  | _, _, _, .cons h h' => (of_concat h).join rfl (of_items h')

theorem of_concat : ∀ {n ts e}, Concat o n ts e → Steps condition ts condition
  | _, _, _, .one h => of_operand h
  | _, _, _, .many h _ => of_operands h

theorem of_operands : ∀ {n ts es}, Operands o n ts es → Steps condition ts condition
  | _, _, _, .one h => of_operand h
  | _, _, _, .dot h h' => (of_operands h).join rfl (of_operand h')

theorem of_operand : ∀ {n ts e}, Operand o n ts e → Steps condition ts condition
  | _, _, _, .boolean _ | _, _, _, .number _ | _, _, _, .backref _ | _, _, _, .word _ =>
    .one (.plain rfl)
  | _, _, _, .string h => .cons .openString ((of_parts h).trans (.one .closeString))
  | _, _, _, .reference h => .cons (.openReference false) (of_reference h false)
  | _, _, _, .call _ h => .cons (.plain rfl) (.wrap rfl (of_items h) rfl)
  | _, _, _, .group h => .wrap rfl (of_disjunction h) rfl

end

end Place

end RequestCondition

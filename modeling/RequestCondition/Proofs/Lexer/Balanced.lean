import Mathlib.Data.List.Chain
import RequestCondition.Proofs.Lexer.Reading

/-!
# Balanced tokens

Two tokens open something and two close it: a string goes from one quote to the other, and a
reference from one brace to the other.  What stands between them depends on what it is, a condition,
a string or a reference (`Layer`), and `Balanced L ts` says that the tokens `ts` are such a layer,
with nothing left open in it.

Tokens that are read one after another are not balanced in general, since something may be open.
`Unclosed B Ls ts` names the layers that are, and is all that a reader has to keep up: a token goes
on with the innermost layer, or opens one inside of it, or closes it, and in the end whatever is
open can be closed (`Unclosed.exists_balanced`).

Both predicates are about tokens alone, without a lexer.  They grow at the end, as tokens are read:
`Balanced.token` adds one token to a layer, and `Balanced.nested` a whole layer with the two tokens
around it.  With a rule that adds at the front, the token read last would be at the wrong end, and
what it follows could not be said.

`Admits` is a little more than a list of the tokens of each layer.  It knows the token before, and
so it rules out text behind text, and anything but the closing brace behind an argument.  The token
before is looked up in the layer itself: what stands in front of the layer does not count, since the
token that opens it stands between.
-/

set_option autoImplicit false

namespace RequestCondition

/-- Whether a token is text of a string. -/
def Token.isText : Token → Bool
  | strText _ => true
  | _ => false

theorem Token.isText_of_isPlain {t : Token} (h : t.isPlain = true) : t.isText = false := by
  cases t <;> first | rfl | cases h

/-- What tokens stand in. -/
inductive Layer where
  | condition
  | string
  | reference
deriving DecidableEq

namespace Layer

/-- A token of a layer that opens and closes nothing, behind the token `last` of the same layer.  No
text follows text, and nothing follows an argument. -/
inductive Admits : Layer → Option Token → Token → Prop
  | plain {last : Option Token} {t : Token} (ht : t.isPlain = true) : Admits condition last t
  | text {last : Option Token} {s : String} (hs : s ≠ "")
      (hlast : ∀ s', last ≠ some (.strText s')) : Admits string last (.strText s)
  | backref {last : Option Token} (n : Nat) : Admits string last (.backref n)
  | name {last : Option Token} (s : String) (hlast : ∀ arg, last ≠ some (.varArg arg)) :
      Admits reference last (.identifier s)
  | argument {last : Option Token} (arg : String) (hlast : ∀ arg', last ≠ some (.varArg arg')) :
      Admits reference last (.varArg arg)

/-- `L.Encloses t L' u`: inside of `L` the token `t` opens an `L'`, and `u` closes it. -/
inductive Encloses : Layer → Token → Layer → Token → Prop
  | string : Encloses condition .strBegin string .strEnd
  | reference {L : Layer} (hL : L ≠ reference) : Encloses L .varBegin reference .varEnd

variable {L L' : Layer} {last : Option Token} {t u : Token} {ts us : List Token}

/-- What a layer is closed by does not depend on what is around it. -/
theorem Encloses.unique {M : Layer} {v w : Token} (h : L.Encloses t L' u) (h' : M.Encloses v L' w) :
    u = w := by
  cases h <;> cases h' <;> rfl

/-- A condition is in nothing; it is only ever at the bottom. -/
theorem Encloses.ne_condition (h : L.Encloses t L' u) : L' ≠ .condition := by
  cases h <;> nofun

/-- Only conditions have strings in them. -/
theorem Encloses.eq_condition (h : L.Encloses t .string u) : L = .condition := by
  cases h
  rfl

/-- There are no references in references. -/
theorem Encloses.ne_reference (h : L.Encloses t .reference u) : L ≠ .reference := by
  cases h with
  | reference hL => exact hL

theorem Admits.text_apart (h : L.Admits (some t) u) : ¬ (t.isText = true ∧ u.isText = true) := by
  rintro ⟨ht, hu⟩
  cases h with
  | plain hplain => exact Bool.false_ne_true ((Token.isText_of_isPlain hplain).symm.trans hu)
  | text _ hlast =>
    cases t <;> cases ht
    exact hlast _ rfl
  | backref _ | name _ _ | argument _ _ => cases hu

theorem Encloses.isText (h : L.Encloses t L' u) : t.isText = false ∧ u.isText = false := by
  cases h <;> exact ⟨rfl, rfl⟩

/-- What a layer admits it admits at its front. -/
theorem Admits.front (h : L.Admits last t) : L.Admits none t := by
  cases h with
  | plain ht => exact .plain ht
  | text hs _ => exact .text hs nofun
  | backref n => exact .backref n
  | name s _ => exact .name s nofun
  | argument arg _ => exact .argument arg nofun

/-- What stands in front of the layer does not matter. -/
theorem Admits.of_append (h : L.Admits (ts ++ us).getLast? t) : L.Admits us.getLast? t := by
  by_cases hus : us = []
  · rw [hus, List.getLast?_nil]
    exact h.front
  · rwa [List.getLast?_append_of_ne_nil _ hus] at h

end Layer

/-! ## Nothing left open

The rules follow the way in which tokens are read.  That a layer has no text behind text is then
proved along the rules, and the two ends of a nested layer have to be looked at: they are tokens
that open and close, which are no text. -/

/-- Tokens of a layer in which everything that is opened is closed. -/
inductive Balanced : Layer → List Token → Prop
  | nil (L : Layer) : Balanced L []
  | token {L : Layer} {ts : List Token} {t : Token} (h : Balanced L ts)
      (ht : L.Admits ts.getLast? t) : Balanced L (ts ++ [t])
  | nested {L L' : Layer} {ts us : List Token} {t u : Token} (h : Balanced L ts)
      (hb : L.Encloses t L' u) (hus : Balanced L' us) : Balanced L (ts ++ t :: us ++ [u])

namespace Balanced

variable {L : Layer} {ts : List Token}

/-- There are no quotes outside of conditions. -/
theorem quotes_notMem (h : Balanced L ts) (hL : L ≠ .condition) :
    .strBegin ∉ ts ∧ .strEnd ∉ ts := by
  induction h with
  | nil L => exact ⟨List.not_mem_nil, List.not_mem_nil⟩
  | token _ ht ih =>
    have hne := ih hL
    cases ht with
    | plain _ => exact absurd rfl hL
    | text _ _ | backref _ | name _ _ | argument _ _ => simpa using hne
  | nested _ hb _ ih ih' =>
    have hne := ih hL
    cases hb with
    | string => exact absurd rfl hL
    | reference _ => simpa using ⟨⟨hne.1, (ih' nofun).1⟩, hne.2, (ih' nofun).2⟩

/-- Text is not empty, in a layer or in a layer inside of it. -/
theorem text_ne_empty (h : Balanced L ts) {s : String} (hs : .strText s ∈ ts) : s ≠ "" := by
  induction h with
  | nil L => cases hs
  | token _ ht ih =>
    obtain hs | hs := List.mem_append.1 hs
    · exact ih hs
    · obtain rfl := List.mem_singleton.1 hs
      cases ht with
      | plain ht => cases ht
      | text hs _ => exact hs
  | nested _ hb _ ih ih' =>
    cases hb <;> simp only [List.mem_append, List.mem_cons, List.not_mem_nil, reduceCtorEq,
      false_or, or_false] at hs <;> exact hs.elim ih ih'

/-- No text follows text, be it in one layer or in two. -/
theorem text_apart (h : Balanced L ts) :
    ts.IsChain fun t u ↦ ¬ (t.isText = true ∧ u.isText = true) := by
  induction h with
  | nil L => exact .nil
  | token _ ht ih =>
    refine ih.append (.singleton _) fun v hv w hw ↦ ?_
    obtain rfl := Option.some.inj hw
    rw [Option.mem_def.1 hv] at ht
    exact ht.text_apart
  | nested _ hb _ ih ih' =>
    have hfalse := hb.isText
    refine (ih.append (ih'.cons fun v _ h ↦ ?_) fun v _ w hw h ↦ ?_).append (.singleton _)
      fun v _ w hw h ↦ ?_
    · rw [hfalse.1] at h
      cases h.1
    · obtain rfl := Option.some.inj hw
      rw [hfalse.1] at h
      cases h.2
    · obtain rfl := Option.some.inj hw
      rw [hfalse.2] at h
      cases h.2

end Balanced

/-! ## Layers left open

A layer that has been begun is kept with the token that opened it and with the one that would close
it, so an open layer can be taken up again where it was left. -/

/-- Tokens after which some layers are open, innermost first; `B` is the last of them. -/
inductive Unclosed (B : Layer) : List Layer → List Token → Prop
  | bottom {ts : List Token} (h : Balanced B ts) : Unclosed B [B] ts
  | inside {L L' : Layer} {Ls : List Layer} {ts us : List Token} {t u : Token}
      (h : Unclosed B (L :: Ls) ts) (hb : L.Encloses t L' u) (hus : Balanced L' us) :
      Unclosed B (L' :: L :: Ls) (ts ++ t :: us)

namespace Unclosed

variable {B L L' : Layer} {Ls : List Layer} {ts us vs : List Token} {t u : Token}

/-- The innermost layer goes on. -/
theorem append (h : Unclosed B (L :: Ls) ts)
    (hvs : ∀ us, us <:+ ts → Balanced L us → Balanced L (us ++ vs)) :
    Unclosed B (L :: Ls) (ts ++ vs) := by
  cases h with
  | bottom h => exact .bottom (hvs _ List.suffix_rfl h)
  | @inside _ _ _ ts us t u h hb hus =>
    have hsuffix : us <:+ ts ++ t :: us :=
      (List.suffix_cons t us).trans (List.suffix_append ts (t :: us))
    rw [List.append_assoc, List.cons_append]
    exact .inside h hb (hvs us hsuffix hus)

theorem token (h : Unclosed B (L :: Ls) ts) (ht : L.Admits ts.getLast? t) :
    Unclosed B (L :: Ls) (ts ++ [t]) := by
  refine h.append fun us hus hbal ↦ hbal.token ?_
  obtain ⟨before, rfl⟩ := hus
  exact ht.of_append

theorem nested (h : Unclosed B (L :: Ls) ts) (hb : L.Encloses t L' u) (hus : Balanced L' us) :
    Unclosed B (L :: Ls) (ts ++ t :: us ++ [u]) := by
  rw [List.append_assoc]
  refine h.append fun vs _ hbal ↦ ?_
  rw [← List.append_assoc]
  exact hbal.nested hb hus

/-- The token that closes the innermost layer makes it a part of the layer around it. -/
theorem leave (h : Unclosed B (L' :: L :: Ls) ts) (ht : L.Encloses u L' t) :
    Unclosed B (L :: Ls) (ts ++ [t]) := by
  cases h with
  | inside h hb hus => exact hb.unique ht ▸ h.nested hb hus

/-- Whatever is open can be closed. -/
theorem exists_balanced (h : Unclosed B Ls ts) : ∃ rest, Balanced B (ts ++ rest) := by
  induction Ls generalizing ts with
  | nil => cases h
  | cons L Ls ih =>
    cases h with
    | bottom h => exact ⟨[], (List.append_nil ts).symm ▸ h⟩
    | @inside _ _ _ ts us t u h hb hus =>
      obtain ⟨rest, hrest⟩ := ih (h.nested hb hus)
      refine ⟨u :: rest, ?_⟩
      rwa [List.append_assoc, List.singleton_append] at hrest

/-- If only the layer at the bottom is open, nothing is left open in it. -/
theorem balanced (h : Unclosed B [L] ts) : Balanced B ts := by
  cases h with
  | bottom h => exact h

end Unclosed

end RequestCondition

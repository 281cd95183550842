import Mathlib.Data.List.Chain
import RequestCondition.Proofs.Evaluator.Events
import RequestCondition.Proofs.Lexer.Tokens
import RequestCondition.Proofs.Parser.Place
import RequestCondition.Proofs.Parser.Template

/-!
# The normal form of trees

A tree can say more than a source can: a string could be cut in the middle of its text, a variable
could have any name and any number of arguments, a concatenation could have a single part.  Nothing
that is parsed does.  `Expr.IsNormal` says of a root what it can be, and `Expr.Normal` of a tree
that each root in it is so.

Part of that is due to the grammar, and part to what tokens say (`Token.Fits`).  The two are brought
together where a phrase is read: a lexer that is in a condition in front of a phrase is in it again
behind the phrase, so it knows in which mode each token was read, and the tree is in normal form
(`Phrase.Yields`).  `Expression.parse_normal` says so of whole sources.

That the modes have to be known is the point of `Yields`.  A name in a reference may start with a
digit and a word in a condition may not, and as tokens both are identifiers.  So neither the
derivation nor the list of tokens tells what an identifier is, but the lexer that has read it does,
and its modes are those of the place where the phrase starts.

* `Yields ts P` is a statement about every lexer that reads `ts` in a condition.  It is put together
  as phrases are, by `append`, `join` and `wrap`.
* Strings and references are the two parts in which the mode changes.  They have lemmas of their own
  (`parts_normal`, `reference_normal`), which say in which mode they start.
* Text is never next to text.  This is not in the grammar at all: it is the lexer that makes one
  token of it (`Lexer.text_apart`).

With that there is one line for each rule of the grammar, and the recursion is on derivations.
-/

set_option autoImplicit false

namespace RequestCondition

/-! ## Normal forms

What is asked of a root is asked of what it holds itself and not of its operands; the tree as a
whole is then a condition on all its subtrees. -/

/-- A reference by a word to which at most one argument is given, and no brace in that. -/
structure VarRef.IsNormal (ref : VarRef) : Prop where
  name : IsVarName ref.name
  length : ref.args.length ≤ 1
  args : ∀ arg ∈ ref.args, '\x7d' ∉ arg.toList

namespace StringPart

def isText : StringPart → Bool
  | .text _ => true
  | .variable _ | .backref _ => false

/-- Text that is not empty, or a reference. -/
def IsNormal : StringPart → Prop
  | .text s => s ≠ ""
  | .variable ref => ref.IsNormal
  | .backref n => n ≤ 9

/-- The parts of a string are cut where references stand and nowhere else. -/
structure AllNormal (parts : List StringPart) : Prop where
  part : ∀ p ∈ parts, p.IsNormal
  apart : parts.IsChain fun p q ↦ ¬ (p.isText = true ∧ q.isText = true)

variable {p : StringPart} {parts : List StringPart}

theorem AllNormal.nil : AllNormal [] := ⟨nofun, .nil⟩

/-- One more part in front, which is not text if the next one is. -/
theorem AllNormal.cons (hp : p.IsNormal) (happ : ∀ q ∈ parts.head?, ¬ (p.isText ∧ q.isText))
    (h : AllNormal parts) : AllNormal (p :: parts) :=
  ⟨List.forall_mem_cons.2 ⟨hp, h.part⟩, List.isChain_cons.2 ⟨happ, h.apart⟩⟩

end StringPart

namespace Expr

variable {o : ParseOptions} {e a b : Expr} {es : List Expr}

/-- What a root can be that is parsed with the options `o`. -/
def IsNormal (o : ParseOptions) : Expr → Prop
  | .string parts => StringPart.AllNormal parts
  | .variable ref => ref.IsNormal
  | .backref n => n ≤ 9
  | .isMatch _ _ regex => o.ignoreCase = true → regex.ignoreCase = true
  | .concat parts => 2 ≤ parts.length
  | .call name _ => IsIdentifier name
  | .unaryTest op _ => IsUnaryOp op ∧ op ≠ "-R"
  | .binaryTest op _ _ => IsBinaryOp op
  | .boolean _ | .number _ | .not _ | .logical _ _ _ | .comparison _ _ _ | .isIn _ _ => True

/-- A tree in which every root is one that can be parsed. -/
def Normal (o : ParseOptions) (e : Expr) : Prop := ∀ a ∈ e.subtrees, a.IsNormal o

namespace Normal

/-- A tree is in normal form if its root is and its operands are. -/
theorem intro (h : e.IsNormal o) (hall : ∀ a ∈ e.operands, a.Normal o) : e.Normal o := by
  intro a ha
  rw [subtrees, descendants_eq, List.mem_cons, List.mem_flatMap] at ha
  obtain rfl | ⟨b, hb, ha⟩ := ha
  · exact h
  · exact hall b hb a ha

theorem leaf (h : e.IsNormal o) (he : e.operands = []) : e.Normal o :=
  .intro h fun a ha ↦ by
    rw [he] at ha
    cases ha

theorem single (h : a.Normal o) : ∀ x ∈ [a], x.Normal o := List.forall_mem_singleton.2 h

theorem pair (h : a.Normal o) (h' : b.Normal o) : ∀ x ∈ [a, b], x.Normal o :=
  List.forall_mem_cons.2 ⟨h, single h'⟩

end Normal

end Expr

/-! ## Reading phrases

Phrases are made of tokens of conditions and of smaller phrases.  What is known of the parts is
known of the whole, as the modes are the same behind a part as in front of it. -/

namespace Phrase

variable {o : ParseOptions} {l l' : Lexer} {t u : Token} {ts us : List Token} {P Q : Prop}

/-- Where the tokens `ts` are read in a condition, they leave the modes as they were, and `P`
holds. -/
def Yields (ts : List Token) (P : Prop) : Prop :=
  ∀ ⦃l l' : Lexer⦄, l.mode = .normal → l.Reads ts l' → l'.modes = l.modes ∧ P

namespace Yields

theorem nil : Yields [] True := by
  intro l l' _ hr
  cases hr
  exact ⟨rfl, trivial⟩

theorem imp (h : Yields ts P) (hPQ : P → Q) : Yields ts Q :=
  fun _ _ hm hr ↦ (h hm hr).imp_right hPQ

/-- A token of a condition says what it can say there. -/
theorem one (ht : t.isPlain = true) : Yields [t] (t.Fits .normal) := by
  intro l l' hm hr
  cases hr with
  | more hn hteof hr =>
    cases hr
    obtain ⟨hfits, hmodes, -⟩ := Lexer.fits_of_stay hm hn hteof (Token.turns_of_isPlain ht)
    exact ⟨hmodes, hfits⟩

/-- Two parts of a condition, one behind the other. -/
theorem append (h : Yields ts P) (h' : Yields us Q) : Yields (ts ++ us) (P ∧ Q) := by
  intro l l' hm hr
  obtain ⟨k, hts, hus⟩ := hr.split
  obtain ⟨hk, hP⟩ := h hm hts
  have hkm : k.mode = .normal := by rw [Lexer.mode, hk, ← Lexer.mode, hm]
  obtain ⟨hl', hQ⟩ := h' hkm hus
  exact ⟨hl'.trans hk, hP, hQ⟩

theorem behind (ht : t.isPlain = true) (h : Yields ts P) :
    Yields (t :: ts) (t.Fits .normal ∧ P) :=
  (one ht).append h

theorem join (h : Yields ts P) (ht : t.isPlain = true) (h' : Yields us Q) :
    Yields (ts ++ t :: us) (P ∧ t.Fits .normal ∧ Q) :=
  h.append (h'.behind ht)

theorem wrap (ht : t.isPlain = true) (h : Yields ts P) (hu : u.isPlain = true) :
    Yields (t :: ts ++ [u]) P :=
  ((h.behind ht).append (one hu)).imp fun h ↦ h.1.2

end Yields

/-! ## References and strings

A reference may stand in a condition or in a string.  It is entered by its opening and left by its
brace, and the mode around it is back in place. -/

/-- **A reference that is read is in normal form**, and the lexer is back where it was opened.  A
phrase of a reference has one name and one argument at most, and what they say is known from the
mode that they are read in. -/
theorem reference_normal {ref : VarRef} {opened : Nat} (h : Reference ts ref)
    (hm : l.mode = .reference opened) (hr : l.Reads ts l') :
    l'.modes = l.modes.tail ∧ ref.IsNormal := by
  cases h with
  | plain name =>
    obtain _ | ⟨hn, hteof, _ | ⟨hn', -, ⟨⟩⟩⟩ := hr
    obtain ⟨hname, hmodes, -⟩ := Lexer.fits_of_stay hm hn hteof rfl
    refine ⟨?_, hname, by simp, by simp⟩
    rw [Lexer.modes_of_varEnd hn', hmodes]
  | argument name arg =>
    obtain _ | ⟨hn, hteof, _ | ⟨hn', hteof', _ | ⟨hn'', -, ⟨⟩⟩⟩⟩ := hr
    obtain ⟨hname, hmodes, hm'⟩ := Lexer.fits_of_stay hm hn hteof rfl
    obtain ⟨harg, hmodes', -⟩ := Lexer.fits_of_stay hm' hn' hteof' rfl
    refine ⟨?_, hname, by simp, List.forall_mem_singleton.2 harg⟩
    rw [Lexer.modes_of_varEnd hn'', hmodes', hmodes]

/-- **The parts of a string that is read are in normal form.**  That no two parts of text stand side
by side cannot be told from the tokens.  The lexer does not read them so. -/
theorem parts_normal {ps : List StringPart} {quote : Char} {opened : Nat} (h : Parts ts ps)
    (hm : l.mode = .string quote opened) (hr : l.Reads ts l') :
    l'.modes = l.modes ∧ StringPart.AllNormal ps := by
  induction h generalizing l with
  | nil =>
    cases hr
    exact ⟨rfl, .nil⟩
  | text s hps ih =>
    obtain _ | ⟨hn, hteof, hr⟩ := hr
    obtain ⟨hfits, hmodes, hm'⟩ := Lexer.fits_of_stay hm hn hteof rfl
    obtain ⟨hmodes', hnormal⟩ := ih hm' hr
    refine ⟨hmodes'.trans hmodes, .cons hfits ?_ hnormal⟩
    -- two parts of text side by side would be two tokens of text, one after the other
    cases hps with
    | nil | backref _ _ | reference _ _ => simp [StringPart.isText]
    | text s' _ =>
      obtain _ | ⟨hn', -, -⟩ := hr
      exact absurd hn' (Lexer.text_apart hm hn)
  | backref k _ ih =>
    obtain _ | ⟨hn, hteof, hr⟩ := hr
    obtain ⟨hfits, hmodes, hm'⟩ := Lexer.fits_of_stay hm hn hteof rfl
    obtain ⟨hmodes', hnormal⟩ := ih hm' hr
    exact ⟨hmodes'.trans hmodes, .cons hfits (by simp [StringPart.isText]) hnormal⟩
  | @reference us ts ref ps href _ ih =>
    obtain _ | ⟨hn, -, hr⟩ := hr
    obtain ⟨start, hmodes⟩ := Lexer.modes_of_varBegin hn
    obtain ⟨k, hus, hr⟩ := Lexer.Reads.split hr
    obtain ⟨hk, hnormal⟩ := reference_normal href (Lexer.mode_of_modes hmodes) hus
    rw [hmodes, List.tail_cons] at hk
    obtain ⟨hmodes', hnormal'⟩ := ih (by rw [Lexer.mode, hk, ← Lexer.mode, hm]) hr
    exact ⟨hmodes'.trans hk, .cons hnormal (by simp [StringPart.isText]) hnormal'⟩

/-- A string between its quotes. -/
theorem string_normal {ps : List StringPart} (h : Parts ts ps) :
    Yields (.strBegin :: ts ++ [.strEnd]) ((Expr.string ps).Normal o) := by
  intro l l' hm hr
  obtain _ | ⟨hn, -, hr⟩ := hr
  obtain ⟨quote, opened, hmodes⟩ := Lexer.modes_of_strBegin hm hn
  obtain ⟨k, hts, hr⟩ := Lexer.Reads.split hr
  obtain ⟨hk, hnormal⟩ := parts_normal h (Lexer.mode_of_modes hmodes) hts
  obtain _ | ⟨hn', -, ⟨⟩⟩ := hr
  refine ⟨?_, .leaf hnormal rfl⟩
  rw [Lexer.modes_of_strEnd hn', hk, hmodes, List.tail_cons]

/-- A reference between its braces. -/
theorem variable_normal {ref : VarRef} (h : Reference ts ref) :
    Yields (.varBegin :: ts) ((Expr.variable ref).Normal o) := by
  intro l l' hm hr
  obtain _ | ⟨hn, -, hr⟩ := hr
  obtain ⟨start, hmodes⟩ := Lexer.modes_of_varBegin hn
  obtain ⟨hl', hnormal⟩ := reference_normal h (Lexer.mode_of_modes hmodes) hr
  rw [hmodes, List.tail_cons] at hl'
  exact ⟨hl', .leaf hnormal rfl⟩

/-! ## Conditions

One theorem for each kind of phrase, and one case for each of its rules. -/

/-- A literal that is read with the option has the flag. -/
theorem usable_ignoreCase {r : RegexLiteral} (h : Usable o t r) :
    o.ignoreCase = true → r.ignoreCase = true := by
  cases h
  intro ho
  rw [ho, Bool.or_true]

/-- The variable that `-R` asks for. -/
theorem remoteAddr_normal : (Expr.variable ⟨"REMOTE_ADDR", []⟩).Normal o :=
  .leaf ⟨⟨by decide, List.all_eq_true.1 (by decide)⟩, by decide, nofun⟩ rfl

/-- The test that `-R` stands for. -/
theorem isBinaryOp_ipmatch : IsBinaryOp "-ipmatch" :=
  ⟨"ipmatch", .intro (by decide) (List.all_eq_true.1 (by decide)), by decide, by decide, rfl⟩

/-- A bare word is text that is not empty. -/
theorem word_normal {name : String} (h : IsIdentifier name) :
    (Expr.string [.text name]).Normal o := by
  have hne : name ≠ "" := by
    rintro rfl
    cases h.1
  exact .leaf (.cons hne nofun .nil) rfl

open RequestCondition.Expr (Normal)
open RequestCondition.Expr.Normal (single pair)

mutual

/-- **The tree of a condition that is read is in normal form.** -/
theorem disjunction_normal : ∀ {n ts e}, Disjunction o n ts e → Yields ts (e.Normal o)
  | _, _, _, .one h => conjunction_normal h
  | _, _, _, .or h h' => ((disjunction_normal h).join rfl (conjunction_normal h')).imp
    fun ⟨he, _, hf⟩ ↦ .intro trivial (pair he hf)

theorem conjunction_normal : ∀ {n ts e}, Conjunction o n ts e → Yields ts (e.Normal o)
  | _, _, _, .one h => negation_normal h
  | _, _, _, .and h h' => ((conjunction_normal h).join rfl (negation_normal h')).imp
    fun ⟨he, _, hf⟩ ↦ .intro trivial (pair he hf)

theorem negation_normal : ∀ {n ts e}, Negation o n ts e → Yields ts (e.Normal o)
  | _, _, _, .comparison h => comparison_normal h
  | _, _, _, .not h => ((negation_normal h).behind rfl).imp
    fun ⟨_, he⟩ ↦ .intro trivial (single he)

theorem comparison_normal : ∀ {n ts e}, Comparison o n ts e → Yields ts (e.Normal o)
  | _, _, _, .concat h => concat_normal h
  | _, _, _, .test h => test_normal h

theorem test_normal : ∀ {n ts e}, Test o n ts e → Yields ts (e.Normal o)
  | _, _, _, .clientMatch h => ((Yields.one (Place.of_usable h)).behind rfl).imp
    fun _ ↦ .intro (usable_ignoreCase h) (single remoteAddr_normal)
  | _, _, _, .clientBlock h => ((concat_normal h).behind rfl).imp
    fun ⟨_, he⟩ ↦ .intro isBinaryOp_ipmatch (pair remoteAddr_normal he)
  | _, _, _, .unaryTest hop h => ((concat_normal h).behind rfl).imp
    fun ⟨hfits, he⟩ ↦ .intro ⟨hfits, hop⟩ (single he)
  | _, _, _, .compare _ h h' => ((concat_normal h).join rfl (concat_normal h')).imp
    fun ⟨he, _, hf⟩ ↦ .intro trivial (pair he hf)
  | _, _, _, .isMatch h hr | _, _, _, .isNoMatch h hr =>
    ((concat_normal h).join rfl (.one (Place.of_usable hr))).imp
      fun ⟨he, _⟩ ↦ .intro (usable_ignoreCase hr) (single he)
  | _, _, _, .isIn h h' =>
    (((concat_normal h).join rfl ((items_normal h').behind rfl)).append (.one rfl)).imp
      fun ⟨⟨he, _, _, hes⟩, _⟩ ↦ .intro trivial (List.forall_mem_cons.2 ⟨he, hes⟩)
  | _, _, _, .binaryTest _ h h' => ((concat_normal h).join rfl (concat_normal h')).imp
    fun ⟨he, hfits, hf⟩ ↦ .intro hfits (pair he hf)

theorem items_normal : ∀ {n ts es}, Items o n ts es → Yields ts (∀ e ∈ es, e.Normal o)
  | _, _, _, .nil => Yields.nil.imp fun _ ↦ nofun
  | _, _, _, .last h => (concat_normal h).imp single
  | _, _, _, .cons h h' => ((concat_normal h).join rfl (items_normal h')).imp
    fun ⟨he, _, hes⟩ ↦ List.forall_mem_cons.2 ⟨he, hes⟩

theorem concat_normal : ∀ {n ts e}, Concat o n ts e → Yields ts (e.Normal o)
  | _, _, _, .one h => operand_normal h
  | _, _, _, .many h hes => (operands_normal h).imp fun h ↦ .intro hes h

theorem operands_normal : ∀ {n ts es}, Operands o n ts es → Yields ts (∀ e ∈ es, e.Normal o)
  | _, _, _, .one h => (operand_normal h).imp single
  | _, _, _, .dot h h' => ((operands_normal h).join rfl (operand_normal h')).imp
    fun ⟨hes, _, he⟩ ↦ List.forall_mem_append.2 ⟨hes, single he⟩

theorem operand_normal : ∀ {n ts e}, Operand o n ts e → Yields ts (e.Normal o)
  | _, _, _, .boolean _ | _, _, _, .number _ => (Yields.one rfl).imp fun _ ↦ .leaf trivial rfl
  | _, _, _, .backref _ => (Yields.one rfl).imp fun hfits ↦ .leaf hfits rfl
  | _, _, _, .word _ => (Yields.one rfl).imp word_normal
  | _, _, _, .string h => string_normal h
  | _, _, _, .reference h => variable_normal h
  | _, _, _, .call _ h => (((items_normal h).wrap rfl rfl).behind rfl).imp
    fun ⟨hfits, hes⟩ ↦ .intro hfits hes
  | _, _, _, .group h => (disjunction_normal h).wrap rfl rfl

end

end Phrase

/-! ## Whole sources

A source starts in a condition, and a template in its string. -/

namespace Expression

variable {source : String} {options : ParseOptions} {x : Expression}

theorem normal_of_parse (h : parse source options = .ok x) : x.root.Normal options := by
  obtain ⟨-, -, ts, ⟨l, hr, -⟩, he⟩ := disjunction_of_parse h
  exact (Phrase.disjunction_normal he rfl hr).2

/-- The tree of a template, in which there are no literals for the options to speak of. -/
theorem normal_of_parseTemplate (h : parseTemplate source = .ok x) (options : ParseOptions) :
    x.root.Normal options := by
  obtain ⟨ts, ps, ⟨l, hr, -⟩, hps, rfl⟩ := parts_of_parseTemplate h
  exact .leaf (Phrase.parts_normal hps rfl hr).2 rfl

/-- **Parsed trees are in normal form**, those of conditions and those of templates. -/
theorem parse_normal :
    (∀ source options x, parse source options = .ok x → x.root.Normal options) ∧
      ∀ source x, parseTemplate source = .ok x → ∀ options, x.root.Normal options :=
  ⟨fun _ _ _ h ↦ normal_of_parse h, fun _ _ h ↦ normal_of_parseTemplate h⟩

theorem exists_of_isOk {ε α : Type} {r : Except ε α} (h : r.isOk = true) : ∃ a, r = .ok a := by
  cases r with
  | ok a => exact ⟨a, rfl⟩
  | error e => cases h

/-- A test of the client's address, a call with a string in it, and a template. -/
theorem parse_normal_examples :
    (∃ x, parse "-R /a/ && f(\"b$1c\" . d)" { ignoreCase := true } = .ok x ∧
        x.root.Normal { ignoreCase := true }) ∧
      ∃ x, parseTemplate "b%\x7bc:d\x7de" = .ok x ∧ x.root.Normal { ignoreCase := true } := by
  obtain ⟨x, hx⟩ : ∃ x, parse "-R /a/ && f(\"b$1c\" . d)" { ignoreCase := true } = .ok x :=
    exists_of_isOk (by decide +kernel)
  obtain ⟨y, hy⟩ : ∃ y, parseTemplate "b%\x7bc:d\x7de" = .ok y :=
    exists_of_isOk (by decide +kernel)
  exact ⟨⟨x, hx, parse_normal.1 _ _ _ hx⟩, y, hy, parse_normal.2 _ _ hy _⟩

end Expression

end RequestCondition

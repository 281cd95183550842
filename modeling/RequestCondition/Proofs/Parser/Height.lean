import RequestCondition.Proofs.Lexer.Splice
import RequestCondition.Proofs.Parser.Acceptance

/-!
# How high trees are

A tree is walked over by recursion, so its height is the depth of that recursion.  The parser counts
the negations, groups and argument lists that are open, and each of these costs four nodes on a path
at most.  A concatenation keeps its operands in one list, however many they are.

Chains of a logical operator are not paid for in that way: every operator of `a || b || c` is a node
of its own, above the one before it.  So there are two measures.  `Expr.nesting` counts such a chain
once, and `Phrase.nesting_disjunction` bounds it for all sources alike.  `Expr.height` counts every
node: it exceeds the nesting by the number of logical operators at most (`Expr.height_le`), and
there is no bound for all sources, because a chain of `n` operators is read into a tree of height `n
+ 1` (`Expression.parse_chain`).

The four nodes are those of a group: a disjunction, a conjunction, a comparison and a concatenation
may stand between one parenthesis and the next.  The bounds in the mutual theorem go down by one
from each kind of phrase to the next tighter one, and up by four where a construct is opened.  At
the bottom there is one node more, that of an operand.

A chain of `&&` inside a chain of `||` is two chains, since the operators differ; and a chain on the
right of an operator comes out of a group, which has been paid for.  So `nesting` leaves an operator
uncounted only where its left operand is a chain of the same operator.

That chains are read whatever their length is a fact about every stage: the lexer reads the tokens
(`Lexer.tokenizes_chainSource`), the grammar derives the tree (`Phrase.disjunction_chain`), and the
theorem about acceptance takes one to the other.
-/

set_option autoImplicit false

namespace RequestCondition

namespace Expr

/-! ## Measures of trees -/

/-- Whether a tree is a chain of a logical operator. -/
def isChain (op : LogicalOp) : Expr → Bool
  | .logical op' _ _ => op' == op
  | _ => false

mutual

/-- The number of nodes on the longest path from the root to a leaf. -/
def height : Expr → Nat
  | .boolean _ | .number _ | .string _ | .variable _ | .backref _ => 1
  | .not operand => operand.height + 1
  | .logical _ left right => max left.height right.height + 1
  | .comparison _ left right => max left.height right.height + 1
  | .isMatch _ subject _ => subject.height + 1
  | .isIn needle list => max needle.height (heights list) + 1
  | .concat parts => heights parts + 1
  | .call _ args => heights args + 1
  | .unaryTest _ operand => operand.height + 1
  | .binaryTest _ left right => max left.height right.height + 1

/-- The height of the highest of some trees. -/
def heights : List Expr → Nat
  | [] => 0
  | e :: es => max e.height (heights es)

end

mutual

/-- The number of nodes on the longest path, where the operators of a chain count once. -/
def nesting : Expr → Nat
  | .boolean _ | .number _ | .string _ | .variable _ | .backref _ => 1
  | .not operand => operand.nesting + 1
  | .logical op left right =>
    max (if left.isChain op then left.nesting else left.nesting + 1) (right.nesting + 1)
  | .comparison _ left right => max left.nesting right.nesting + 1
  | .isMatch _ subject _ => subject.nesting + 1
  | .isIn needle list => max needle.nesting (nestings list) + 1
  | .concat parts => nestings parts + 1
  | .call _ args => nestings args + 1
  | .unaryTest _ operand => operand.nesting + 1
  | .binaryTest _ left right => max left.nesting right.nesting + 1

/-- The nesting of the most nested of some trees. -/
def nestings : List Expr → Nat
  | [] => 0
  | e :: es => max e.nesting (nestings es)

end

mutual

/-- The number of logical operators in a tree. -/
def joints : Expr → Nat
  | .boolean _ | .number _ | .string _ | .variable _ | .backref _ => 0
  | .not operand => operand.joints
  | .logical _ left right => left.joints + right.joints + 1
  | .comparison _ left right => left.joints + right.joints
  | .isMatch _ subject _ => subject.joints
  | .isIn needle list => needle.joints + jointsAll list
  | .concat parts => jointsAll parts
  | .call _ args => jointsAll args
  | .unaryTest _ operand => operand.joints
  | .binaryTest _ left right => left.joints + right.joints

/-- The number of logical operators in some trees. -/
def jointsAll : List Expr → Nat
  | [] => 0
  | e :: es => e.joints + jointsAll es

end

/-- The nesting of some trees and others is that of the more nested. -/
theorem nestings_append (es fs : List Expr) :
    nestings (es ++ fs) = max (nestings es) (nestings fs) := by
  induction es with
  | nil => rw [List.nil_append, nestings, Nat.zero_max]
  | cons e es ih => rw [List.cons_append, nestings, nestings, ih, Nat.max_assoc]

mutual

/-- **A tree is higher than it is nested by its logical operators at most.**  A chain of logical
operators counts as one level of nesting, and every operator in it may add a level of height. -/
theorem height_le : ∀ e : Expr, e.height ≤ e.nesting + e.joints
  | .boolean _ | .number _ | .string _ | .variable _ | .backref _ => Nat.le_refl 1
  | .not operand | .isMatch _ operand _ | .unaryTest _ operand => by
    have := height_le operand
    simp only [height, nesting, joints]
    omega
  | .logical op left right => by
    have := height_le left
    have := height_le right
    simp only [height, nesting, joints]
    split <;> omega
  | .comparison _ left right | .binaryTest _ left right => by
    have := height_le left
    have := height_le right
    simp only [height, nesting, joints]
    omega
  | .isIn needle list => by
    have := height_le needle
    have := heights_le list
    simp only [height, nesting, joints]
    omega
  | .concat es | .call _ es => by
    have := heights_le es
    simp only [height, nesting, joints]
    omega

theorem heights_le : ∀ es : List Expr, heights es ≤ nestings es + jointsAll es
  | [] => Nat.le_refl 0
  | e :: es => by
    have := height_le e
    have := heights_le es
    simp only [heights, nestings, jointsAll]
    omega

end

end Expr

/-! ## Phrases

The induction is on derivations.  Arithmetic closes each case once the bounds for the parts are at
hand. -/

namespace Phrase

variable {o : ParseOptions} {n : Nat} {ts : List Token} {e : Expr}

/-- One more conjunct on the left of a chain leaves the nesting as it is. -/
theorem nesting_logical {op : LogicalOp} {left right : Expr} {k : Nat} (hright : right.nesting ≤ k)
    (hleft : left.nesting ≤ k + 1) (hchain : left.isChain op = false → left.nesting ≤ k) :
    (Expr.logical op left right).nesting ≤ k + 1 := by
  rw [Expr.nesting]
  cases h : left.isChain op with
  | true =>
    rw [if_pos rfl]
    omega
  | false =>
    have := hchain h
    rw [if_neg Bool.false_ne_true]
    omega

mutual

/-- **What is open pays for the nesting**: four nodes for each construct, and five at the bottom.
From one construct to the next inside of it there are a disjunction, a conjunction, a comparison and
a concatenation at most. -/
theorem nesting_disjunction : ∀ {n ts e}, Disjunction o n ts e → e.nesting ≤ 4 * n + 5
  | _, _, _, .one h => Nat.le_succ_of_le (nesting_conjunction h)
  | _, _, _, .or h h' => nesting_logical (nesting_conjunction h') (nesting_disjunction h)
      fun hchain ↦ match h with
        | .one h => nesting_conjunction h
        | .or _ _ => nomatch hchain

theorem nesting_conjunction : ∀ {n ts e}, Conjunction o n ts e → e.nesting ≤ 4 * n + 4
  | _, _, _, .one h => Nat.le_succ_of_le (nesting_negation h)
  | _, _, _, .and h h' => nesting_logical (nesting_negation h') (nesting_conjunction h)
      fun hchain ↦ match h with
        | .one h => nesting_negation h
        | .and _ _ => nomatch hchain

theorem nesting_negation : ∀ {n ts e}, Negation o n ts e → e.nesting ≤ 4 * n + 3
  | _, _, _, .comparison h => nesting_comparison h
  | _, _, _, .not h => by
    have := nesting_negation h
    rw [Expr.nesting]
    omega

theorem nesting_comparison : ∀ {n ts e}, Comparison o n ts e → e.nesting ≤ 4 * n + 3
  | _, _, _, .concat h => Nat.le_succ_of_le (nesting_concat h)
  | _, _, _, .test h => nesting_test h

theorem nesting_test : ∀ {n ts e}, Test o n ts e → e.nesting ≤ 4 * n + 3
  | _, _, _, .clientMatch _ => by
    simp only [Expr.nesting]
    omega
  | _, _, _, .clientBlock h | _, _, _, .unaryTest _ h | _, _, _, .isMatch h _
  | _, _, _, .isNoMatch h _ => by
    have := nesting_concat h
    simp only [Expr.nesting]
    omega
  | _, _, _, .compare _ h h' | _, _, _, .binaryTest _ h h' => by
    have := nesting_concat h
    have := nesting_concat h'
    rw [Expr.nesting]
    omega
  | _, _, _, .isIn h h' => by
    have := nesting_concat h
    have := nestings_items h'
    rw [Expr.nesting]
    omega

theorem nestings_items : ∀ {n ts es}, Items o n ts es → Expr.nestings es ≤ 4 * n + 2
  | _, _, _, .nil => Nat.zero_le _
  | _, _, _, .last h => by
    have := nesting_concat h
    simp only [Expr.nestings]
    omega
  | _, _, _, .cons h h' => by
    have := nesting_concat h
    have := nestings_items h'
    rw [Expr.nestings]
    omega

theorem nesting_concat : ∀ {n ts e}, Concat o n ts e → e.nesting ≤ 4 * n + 2
  | _, _, _, .one h => Nat.le_succ_of_le (nesting_operand h)
  | _, _, _, .many h _ => by
    have := nestings_operands h
    rw [Expr.nesting]
    omega

theorem nestings_operands : ∀ {n ts es}, Operands o n ts es → Expr.nestings es ≤ 4 * n + 1
  | _, _, _, .one h => by
    have := nesting_operand h
    simp only [Expr.nestings]
    omega
  | _, _, _, .dot h h' => by
    have := nestings_operands h
    have := nesting_operand h'
    simp only [Expr.nestings_append, Expr.nestings]
    omega

theorem nesting_operand : ∀ {n ts e}, Operand o n ts e → e.nesting ≤ 4 * n + 1
  | _, _, _, .boolean _ | _, _, _, .number _ | _, _, _, .string _ | _, _, _, .reference _
  | _, _, _, .backref _ | _, _, _, .word _ => Nat.le_add_left _ _
  | _, _, _, .call _ h => by
    have := nestings_items h
    rw [Expr.nesting]
    omega
  | _, _, _, .group h => by
    have := nesting_disjunction h
    omega

end

end Phrase

/-! ## Chains

The source is `a||a||a` and so on.  One round of the induction takes off an operator and a word. -/

/-- The operators of a chain of words behind the first word. -/
def chainTail : Nat → List Char
  | 0 => []
  | n + 1 => '|' :: '|' :: 'a' :: chainTail n

/-- A source that joins words by `n` operators. -/
def chainSource (n : Nat) : String := String.ofList ('a' :: chainTail n)

/-- The tokens of a chain behind the first word. -/
def chainTokens : Nat → List Token
  | 0 => []
  | n + 1 => .or :: .identifier "a" :: chainTokens n

namespace Lexer

variable {l : Lexer}

theorem nextIs_chainTail {p : Char → Bool} (h : p '|' = false) (n : Nat) :
    nextIs p (chainTail n) = false := by
  cases n with
  | zero => rfl
  | succ n => exact h

/-- The word of a chain is read. -/
theorem next_chain_word {n : Nat} (hl : l.template = false) (hm : l.mode = .normal)
    (hr : l.cursor.rest = 'a' :: chainTail n) : ∃ l', l.next = (.ok (.identifier "a"), l') ∧
      l'.cursor.rest = chainTail n ∧ l'.modes = l.modes ∧ l'.template = false := by
  have hstart : l.start.rest = 'a' :: chainTail n :=
    start_of_blanks (b := []) nofun hr (fun _ ↦ rfl) fun _ _ _ ↦ rfl
  have hword : ('a' :: chainTail n).takeWhile isWordChar = ['a'] :=
    takeWhile_append_eq (List.forall_mem_singleton.2 (by decide)) (nextIs_chainTail (by decide) n)
  have hs : Scan.normal l.regexAllowed l.start.offset l.start.rest =
      ⟨.ok (.identifier "a"), 1, .stay⟩ := by
    rw [hstart, Scan.normal_of_isWordStart (by decide), Scan.plain_of_word (by decide) (by simp),
      hword]
    rfl
  obtain ⟨l', hn, hr', hmodes, hl'⟩ := next_of_normal hl hm hs
  rw [hstart] at hr'
  exact ⟨l', hn, hr', hmodes, hl'⟩

/-- The operator of a chain is read. -/
theorem next_chain_or {n : Nat} (hl : l.template = false) (hm : l.mode = .normal)
    (hr : l.cursor.rest = chainTail (n + 1)) : ∃ l', l.next = (.ok .or, l') ∧
      l'.cursor.rest = 'a' :: chainTail n ∧ l'.modes = l.modes ∧ l'.template = false := by
  have hstart : l.start.rest = chainTail (n + 1) :=
    start_of_blanks (b := []) nofun hr (fun _ ↦ rfl) fun _ _ _ ↦ rfl
  have hs : Scan.normal l.regexAllowed l.start.offset l.start.rest = ⟨.ok .or, 2, .stay⟩ := by
    rw [hstart]
    rfl
  obtain ⟨l', hn, hr', hmodes, hl'⟩ := next_of_normal hl hm hs
  rw [hstart] at hr'
  exact ⟨l', hn, hr', hmodes, hl'⟩

/-- The tokens of a chain behind its first word. -/
theorem reads_chain {n : Nat} (hl : l.template = false) (hm : l.modes = [.normal])
    (hr : l.cursor.rest = chainTail n) : l.Tokenizes (chainTokens n) := by
  induction n generalizing l with
  | zero =>
    refine ⟨l, .done l, next_eq_eof_iff.2 (.inr ⟨mode_of_modes hm, ?_⟩)⟩
    rw [start_of_nil hr, hr]
    rfl
  | succ n ih =>
    obtain ⟨l₁, hn₁, hr₁, hm₁, hl₁⟩ := next_chain_or hl (mode_of_modes hm) hr
    have hm₁' := hm₁.trans hm
    obtain ⟨l₂, hn₂, hr₂, hm₂, hl₂⟩ := next_chain_word hl₁ (mode_of_modes hm₁') hr₁
    obtain ⟨l₃, hreads, hend⟩ := ih hl₂ (hm₂.trans hm₁') hr₂
    exact ⟨l₃, .more hn₁ (by decide) (.more hn₂ (by simp) hreads), hend⟩

/-- The tokens of a chain. -/
theorem tokenizes_chainSource (n : Nat) :
    (condition (chainSource n)).Tokenizes (.identifier "a" :: chainTokens n) := by
  have hr : (condition (chainSource n)).cursor.rest = 'a' :: chainTail n :=
    String.toList_ofList
  obtain ⟨l₁, hn₁, hr₁, hm₁, hl₁⟩ := next_chain_word rfl rfl hr
  obtain ⟨l₂, hreads, hend⟩ := reads_chain hl₁ hm₁ hr₁
  exact ⟨l₂, .more hn₁ (by simp) hreads, hend⟩

end Lexer

namespace Phrase

variable {o : ParseOptions} {k : Nat}

theorem word (name : String) : Conjunction o k [.identifier name] (.text name) :=
  .one (.comparison (.concat (.one (.word name))))

/-- A chain goes on growing to the right, and its tree upwards. -/
theorem disjunction_chain (n : Nat) : ∀ {ts : List Token} {e : Expr}, Disjunction o k ts e →
    0 < e.height → ∃ e', Disjunction o k (ts ++ chainTokens n) e' ∧ e'.height = e.height + n := by
  induction n with
  | zero => exact fun {ts e} h _ ↦ ⟨e, by rwa [chainTokens, List.append_nil], rfl⟩
  | succ n ih =>
    intro ts e h hpos
    have hheight : (Expr.logical .or e (.text "a")).height = e.height + 1 := by
      rw [Expr.height, Expr.text, Expr.height, Nat.max_eq_left hpos]
    obtain ⟨e', h', heq⟩ := ih (.or h (word "a")) (by omega)
    refine ⟨e', ?_, by omega⟩
    rwa [List.append_assoc] at h'

end Phrase

namespace Expression

variable {source : String} {options : ParseOptions} {x : Expression}

/-- **A chain of `n` operators is read into a tree of height `n + 1`**, whatever `n` is. -/
theorem parse_chain (n : Nat) (options : ParseOptions) :
    ∃ x, parse (chainSource n) options = .ok x ∧ x.root.height = n + 1 := by
  obtain ⟨e, he, hheight⟩ := Phrase.disjunction_chain (o := options) (k := maxNestingDepth) n
    (.one (Phrase.word "a")) Nat.one_pos
  refine ⟨_, parse_of_disjunction (Lexer.tokenizes_chainSource n) he, ?_⟩
  rw [hheight, Expr.text, Expr.height, Nat.add_comm]

/-- The height of the trees that are read has no bound. -/
theorem not_height_le : ¬ ∀ source x, parse source = .ok x →
    x.root.height ≤ 5 * (maxNestingDepth + 1) := by
  intro h
  obtain ⟨x, hx, hheight⟩ := parse_chain 645 {}
  have := h _ x hx
  rw [hheight, maxNestingDepth] at this
  omega

/-- **The nesting of what is read has a bound**, and its height exceeds that by no more than the
number of its logical operators. -/
theorem height_le_of_parse (h : parse source options = .ok x) :
    x.root.nesting ≤ 5 * (maxNestingDepth + 1) ∧
      x.root.height ≤ 5 * (maxNestingDepth + 1) + x.root.joints := by
  obtain ⟨-, -, ts, -, he⟩ := disjunction_of_parse h
  have hnesting := Phrase.nesting_disjunction he
  have hheight := x.root.height_le
  constructor <;> omega

theorem height_le_of_parse_chain : ∃ x, parse (chainSource 1000) = .ok x ∧
    x.root.nesting ≤ 5 * (maxNestingDepth + 1) ∧
      x.root.height ≤ 5 * (maxNestingDepth + 1) + x.root.joints := by
  obtain ⟨x, h, -⟩ := parse_chain 1000 {}
  exact ⟨x, h, height_le_of_parse h⟩

end Expression

end RequestCondition

import RequestCondition.Proofs.Lexer.Marked
import RequestCondition.Proofs.Parser.Acceptance

/-!
# The test of the client address

`-R` is a test without a left operand: it is about the address of the client.  With a regex literal
behind it, it stands for a match, and with anything else for a test against a network.

A condition that starts with the one can start with the other, and go on in the same way.  For the
grammar that is a matter of the first comparison: `Phrase.Disjunction.first` finds it, and says that
another comparison with the same tree can take its place, so `Disjunction.replace` need only compare
how comparisons start.  The lexer may read what follows in two ways, since a literal may choose its
delimiter behind `-R` and not behind `-ipmatch`; where that makes a difference neither source is a
condition.  `Expression.parse_clientTest` puts this together.

The comparison has two sides that do not meet until the end.

* **Tokens.**  Two lists of tokens that differ at the front are conditions together, with one tree.
  How far the first comparison reaches is not known beforehand.  It is cut off where `&&` or `||`
  comes, and the cut cannot be inside the tokens that are replaced (`prefix_cut`).
* **Characters.**  Both sources go on with the same text `x`, and lexers in front of it differ in
  one point, whether an `m` may open a literal.  That difference has been dealt with before
  (`Lexer.tokenizes_forbid`): either it does not show, or the first lexer comes to no end and the
  second one reads a word and a token that cannot follow it (`Disjunction.behind_word`).

Which test it is that `-R` stands for is told by the first token of `x`.  So the case where `x`
starts with a literal is on its own: there the match comes with `=~`, behind which a literal may
choose its delimiter just as it may behind `-R`.

Neither an error nor its place is compared.  They do differ, since the second source is longer.
-/

set_option autoImplicit false

namespace RequestCondition

/-- Two ways to cut a list: nothing of the second beginning stands behind the first one. -/
theorem prefix_cut {α : Type} {us vs as ts : List α} (h : us ++ vs = as ++ ts)
    (hvs : ∀ a ∈ vs.head?, a ∉ as) : ∃ bs, us = as ++ bs ∧ ts = bs ++ vs := by
  obtain ⟨bs, rfl, hvs'⟩ | ⟨bs, rfl, hts⟩ := List.append_eq_append_iff.1 h
  · cases bs with
    | nil =>
      refine ⟨[], ?_, ?_⟩
      · rw [List.append_nil, List.append_nil]
      · exact hvs'.symm
    | cons b bs =>
      rw [hvs'] at hvs
      exact absurd (List.mem_append_right us List.mem_cons_self) (hvs b rfl)
  · exact ⟨bs, rfl, hts⟩

namespace Phrase

variable {o : ParseOptions} {n : Nat} {ts us vs : List Token} {e f : Expr} {es : List Expr}
  {t : Token} {name : String}

/-! ## The first comparison of a condition

The first comparison is at the bottom on the left of the tree, below all the operators that join
conditions.  To put another in its place is to go down there, so the two lemmas are recursions on
the rules that are recursive to the left. -/

/-- A conjunction that starts with no negation starts with a comparison, and any other phrase with
the tree of that comparison can stand in its place. -/
theorem Conjunction.first : ∀ {ts : List Token} {e : Expr}, Conjunction o n ts e →
    ts.head? ≠ some .not → ∃ us f vs, Comparison o n us f ∧ ts = us ++ vs ∧
      (∀ t ∈ vs.head?, t = .and) ∧ ∀ us', Comparison o n us' f → Conjunction o n (us' ++ vs) e
  | _, _, .one h, hnot => by
    cases h with
    | comparison h =>
      refine ⟨_, _, [], h, (List.append_nil _).symm, nofun, fun us' h' ↦ ?_⟩
      rw [List.append_nil]
      exact .one (.comparison h')
    | not _ => exact absurd rfl hnot
  | _, _, .and h h', hnot => by
    obtain ⟨us, f, vs, hf, rfl, hvs, hrep⟩ := h.first fun hts ↦ hnot (by
      rw [List.head?_append, hts]
      rfl)
    refine ⟨us, f, _, hf, List.append_assoc us vs _, fun t ht ↦ ?_, fun us' hus' ↦ ?_⟩
    · cases vs with
      | nil => exact (Option.some.inj ht).symm
      | cons v vs => exact hvs t ht
    · rw [← List.append_assoc]
      exact .and (hrep us' hus') h'

/-- The same for a disjunction: what comes behind its first comparison is `&&`, `||` or nothing. -/
theorem Disjunction.first : ∀ {ts : List Token} {e : Expr}, Disjunction o n ts e →
    ts.head? ≠ some .not → ∃ us f vs, Comparison o n us f ∧ ts = us ++ vs ∧
      (∀ t ∈ vs.head?, t = .and ∨ t = .or) ∧
      ∀ us', Comparison o n us' f → Disjunction o n (us' ++ vs) e
  | _, _, .one h, hnot => by
    obtain ⟨us, f, vs, hf, rfl, hvs, hrep⟩ := h.first hnot
    exact ⟨us, f, vs, hf, rfl, fun t ht ↦ .inl (hvs t ht), fun us' hus' ↦ .one (hrep us' hus')⟩
  | _, _, .or h h', hnot => by
    obtain ⟨us, f, vs, hf, rfl, hvs, hrep⟩ := h.first fun hts ↦ hnot (by
      rw [List.head?_append, hts]
      rfl)
    refine ⟨us, f, _, hf, List.append_assoc us vs _, fun t ht ↦ ?_, fun us' hus' ↦ ?_⟩
    · cases vs with
      | nil => exact .inr (Option.some.inj ht).symm
      | cons v vs => exact hvs t ht
    · rw [← List.append_assoc]
      exact .or (hrep us' hus') h'

/-! ## Comparisons that start with a reference

With given tokens in front, the rules leave little choice. -/

/-- A reference without an argument, and a token behind it. -/
def behindReference (name : String) (t : Token) : List Token :=
  [.varBegin, .identifier name, .varEnd, t]

/-- A concatenation goes on behind a reference with a point only. -/
theorem Concat.eq_of_reference (h : Concat o n us f) (ht : t ≠ .dot)
    (heq : us ++ vs = behindReference name t ++ ts) :
    us = [.varBegin, .identifier name, .varEnd] ∧ f = .variable ⟨name, []⟩ ∧ vs = t :: ts := by
  obtain ⟨es, hes, rfl⟩ := concat_iff.1 h
  obtain ⟨us₁, fs, us₂, ⟨g, rfl, hg⟩, rfl, hrun⟩ := hes.run
  obtain ⟨rfl, rfl⟩ : us₁ = [.varBegin, .identifier name, .varEnd] ∧ g = .variable ⟨name, []⟩ := by
    cases hg with
    | reference hr =>
      cases hr with
      | plain _ =>
        obtain rfl : _ = name := Token.identifier.inj (List.cons.inj (List.cons.inj heq).2).1
        exact ⟨rfl, rfl⟩
      | argument _ _ => simp [behindReference] at heq
    | _ => simp [behindReference] at heq
  cases hrun with
  | done _ =>
    refine ⟨rfl, rfl, ?_⟩
    simpa [behindReference] using heq
  | more _ _ =>
    simp only [behindReference, List.cons_append, List.nil_append, List.cons.injEq] at heq
    exact absurd heq.2.2.2.1.symm ht

/-- A comparison that starts with a reference and a token that relates it to another operand is
known but for that operand. -/
theorem Comparison.of_reference (h : Comparison o n (behindReference name t ++ ts) e)
    (ht : t = .isMatch ∨ ∃ op, t = .binaryOp op) :
    (t = .isMatch ∧ ∃ u r, ts = [u] ∧ Usable o u r ∧ e = .isMatch false (.variable ⟨name, []⟩) r) ∨
      ∃ op f, t = .binaryOp op ∧ Concat o n ts f ∧ e = .binaryTest op (.variable ⟨name, []⟩) f := by
  have hdot : t ≠ .dot := by rintro rfl; simp at ht
  generalize hus : behindReference name t ++ ts = us at h
  cases h with
  | concat h =>
    have := (h.eq_of_reference hdot ((List.append_nil _).trans hus.symm)).2.2
    cases this
  | test h =>
    cases h with
    | clientMatch _ | clientBlock _ | unaryTest _ _ => cases (List.cons.inj hus).1
    | compare op h h' =>
      obtain ⟨rfl, rfl, hvs⟩ := h.eq_of_reference hdot hus.symm
      obtain ⟨rfl, rfl⟩ := List.cons.inj hvs
      simp at ht
    | isMatch h hr =>
      obtain ⟨rfl, rfl, hvs⟩ := h.eq_of_reference hdot hus.symm
      obtain ⟨rfl, rfl⟩ := List.cons.inj hvs
      exact .inl ⟨rfl, _, _, rfl, hr, rfl⟩
    | isNoMatch h hr =>
      obtain ⟨rfl, rfl, hvs⟩ := h.eq_of_reference hdot hus.symm
      obtain ⟨rfl, rfl⟩ := List.cons.inj hvs
      simp at ht
    | isIn h h' =>
      rw [List.append_assoc] at hus
      obtain ⟨rfl, rfl, hvs⟩ := h.eq_of_reference hdot hus.symm
      obtain ⟨rfl, rfl⟩ := List.cons.inj hvs
      simp at ht
    | binaryTest op h h' =>
      obtain ⟨rfl, rfl, hvs⟩ := h.eq_of_reference hdot hus.symm
      obtain ⟨rfl, rfl⟩ := List.cons.inj hvs
      exact .inr ⟨op, _, rfl, h', rfl⟩

/-- A test of the client address is followed by a regex literal or by a network. -/
theorem Comparison.of_client (h : Comparison o n (.unaryOp "-R" :: ts) e) :
    (∃ u r, ts = [u] ∧ Usable o u r ∧ e = .isMatch false (.variable ⟨"REMOTE_ADDR", []⟩) r) ∨
      ∃ f, Concat o n ts f ∧ e = .binaryTest "-ipmatch" (.variable ⟨"REMOTE_ADDR", []⟩) f := by
  generalize hus : Token.unaryOp "-R" :: ts = us at h
  have hstart {us vs : List Token} {f : Expr} (h : Concat o n us f)
      (heq : .unaryOp "-R" :: ts = us ++ vs) : False := by
    obtain ⟨t, us, rfl, ht⟩ := h.starts
    obtain ⟨rfl, -⟩ := List.cons.inj heq
    cases ht
  cases h with
  | concat h => exact (hstart h (hus.trans (List.append_nil _).symm)).elim
  | test h =>
    cases h with
    | clientMatch hr => exact .inl ⟨_, _, (List.cons.inj hus).2, hr, rfl⟩
    | clientBlock h => exact .inr ⟨_, (List.cons.inj hus).2 ▸ h, rfl⟩
    | unaryTest hop _ => exact absurd (Token.unaryOp.inj (List.cons.inj hus).1).symm hop
    | compare _ h _ | isMatch h _ | isNoMatch h _ | binaryTest _ h _ => exact (hstart h hus).elim
    | isIn h _ => exact (hstart h (hus.trans (List.append_assoc _ _ _))).elim

/-! ## One comparison for another

The equivalences hold for any options and any number of constructs that may be opened: the two sides
open the same ones. -/

/-- Behind the tokens `a` of a condition its first comparison goes on, up to an operator that joins
conditions or up to the end. -/
theorem Disjunction.first_behind {a : List Token} (h : Disjunction o n (a ++ ts) e)
    (hnot : (a ++ ts).head? ≠ some .not) (ha : ∀ t ∈ a, t ≠ .and ∧ t ≠ .or) :
    ∃ us f vs, Comparison o n (a ++ us) f ∧ ts = us ++ vs ∧
      (∀ t ∈ vs.head?, t = .and ∨ t = .or) ∧
      ∀ us', Comparison o n us' f → Disjunction o n (us' ++ vs) e := by
  obtain ⟨us, f, vs, hf, heq, hvs, hrep⟩ := h.first hnot
  obtain ⟨us, rfl, rfl⟩ := prefix_cut heq.symm fun t ht hmem ↦
    (hvs t ht).elim (ha t hmem).1 (ha t hmem).2
  exact ⟨us, f, vs, hf, rfl, hvs, hrep⟩

/-- The tokens that a comparison starts with can be given up for others, if that leaves the tree of
the comparison as it is wherever the comparison ends. -/
theorem Disjunction.replace {a b : List Token} (h : Disjunction o n (a ++ ts) e)
    (hnot : (a ++ ts).head? ≠ some .not) (ha : ∀ t ∈ a, t ≠ .and ∧ t ≠ .or)
    (hrep : ∀ us vs f, ts = us ++ vs → Comparison o n (a ++ us) f → Comparison o n (b ++ us) f) :
    Disjunction o n (b ++ ts) e := by
  obtain ⟨us, f, vs, hf, rfl, -, hdis⟩ := h.first_behind hnot ha
  rw [← List.append_assoc]
  exact hdis _ (hrep us vs f rfl hf)

/-- In a reference and an operator behind it no conditions are joined. -/
theorem not_links_behindReference (name : String)
    (ht : t = .isMatch ∨ ∃ op, t = .binaryOp op) :
    ∀ u ∈ behindReference name t, u ≠ .and ∧ u ≠ .or := by
  obtain rfl | ⟨op, rfl⟩ := ht <;> simp [behindReference]

/-- `-R` before a regex literal stands for a match of the client address. -/
theorem disjunction_client_regex_iff {pattern : String} {flag : Bool} :
    Disjunction o n (.unaryOp "-R" :: .regex pattern flag :: ts) e ↔
      Disjunction o n (behindReference "REMOTE_ADDR" .isMatch ++ .regex pattern flag :: ts) e := by
  constructor
  · intro h
    refine h.replace (a := [.unaryOp "-R"]) (by simp) (by simp) fun us vs f heq hf ↦ ?_
    obtain ⟨u, r, rfl, hr, rfl⟩ | ⟨g, hg, rfl⟩ := hf.of_client
    · exact .test (.isMatch (.one (.reference (.plain _))) hr)
    · obtain ⟨t, us, rfl, ht⟩ := hg.starts
      obtain ⟨rfl, -⟩ := List.cons.inj heq
      cases ht
  · intro h
    refine h.replace (b := [.unaryOp "-R"]) (by simp [behindReference])
      (not_links_behindReference _ (.inl rfl)) fun us vs f _ hf ↦ ?_
    obtain ⟨-, u, r, rfl, hr, rfl⟩ | ⟨op, g, hop, -⟩ := hf.of_reference (.inl rfl)
    · exact .test (.clientMatch hr)
    · cases hop

/-- `-R` before anything else stands for a test of the client address against a network. -/
theorem disjunction_client_iff (hts : ∀ pattern flag, ts.head? ≠ some (.regex pattern flag)) :
    Disjunction o n (.unaryOp "-R" :: ts) e ↔
      Disjunction o n (behindReference "REMOTE_ADDR" (.binaryOp "-ipmatch") ++ ts) e := by
  constructor
  · intro h
    refine h.replace (a := [.unaryOp "-R"]) (by simp) (by simp) fun us vs f heq hf ↦ ?_
    obtain ⟨u, r, rfl, ⟨hr⟩, rfl⟩ | ⟨g, hg, rfl⟩ := hf.of_client
    · exact absurd (congrArg List.head? heq) (hts _ _)
    · exact .test (.binaryTest _ (.one (.reference (.plain _))) hg)
  · intro h
    refine h.replace (b := [.unaryOp "-R"]) (by simp [behindReference])
      (not_links_behindReference _ (.inr ⟨_, rfl⟩)) fun us vs f _ hf ↦ ?_
    obtain ⟨hop, -⟩ | ⟨op, g, hop, hg, rfl⟩ := hf.of_reference (.inr ⟨_, rfl⟩)
    · cases hop
    · obtain rfl := Token.binaryOp.inj hop
      exact .test (.clientBlock hg)

/-- What goes on behind a word that starts a concatenation. -/
theorem Concat.behind_word (h : Concat o n us f) (heq : us ++ vs = .identifier name :: t :: ts) :
    t.followsWord = true ∨ vs = t :: ts := by
  obtain ⟨es, hes, rfl⟩ := concat_iff.1 h
  obtain ⟨us₁, fs, us₂, ⟨g, rfl, hg⟩, rfl, hrun⟩ := hes.run
  cases hg with
  | word _ =>
    cases hrun with
    | done _ => exact .inr (List.cons.inj heq).2
    | more _ _ =>
      obtain rfl := (List.cons.inj (List.cons.inj heq).2).1
      exact .inl rfl
  | call _ _ =>
    obtain rfl := (List.cons.inj (List.cons.inj heq).2).1
    exact .inl rfl
  | _ => cases (List.cons.inj heq).1

/-- What goes on behind a word at the start of a network. -/
theorem Disjunction.behind_word {op : String} (h : Disjunction o n
      (behindReference "REMOTE_ADDR" (.binaryOp op) ++ .identifier name :: t :: ts) e) :
    t.followsWord = true := by
  obtain ⟨us, f, vs, hf, hus, hvs, -⟩ := h.first_behind (by simp [behindReference])
    (not_links_behindReference _ (.inr ⟨op, rfl⟩))
  obtain ⟨hop, -⟩ | ⟨_, g, -, hg, -⟩ := hf.of_reference (.inr ⟨_, rfl⟩)
  · cases hop
  · obtain ht | rfl := hg.behind_word hus.symm
    · exact ht
    · obtain rfl | rfl := hvs t rfl <;> rfl

end Phrase

/-! ## The beginnings of both sources

What stands in front of `x` is read, by either lexer, and both come to be in front of it. -/

namespace Scan

/-- A word in a reference is its name. -/
theorem reference_of_word {w cs : List Char} {opened start : Nat}
    (hw : ∀ c ∈ w, isWordChar c = true)
    (hne : w ≠ []) (hcs : nextIs isWordChar cs = false) :
    reference opened start (w ++ cs) = ⟨.ok (.identifier (String.ofList w)), w.length, .stay⟩ := by
  obtain ⟨c, w, rfl⟩ := List.exists_cons_of_ne_nil hne
  have hc := hw c List.mem_cons_self
  have hbrace : c ≠ '\x7d' := by rintro rfl; revert hc; decide
  have hcolon : c ≠ ':' := by rintro rfl; revert hc; decide
  rw [List.cons_append, reference, if_neg hbrace, if_neg hcolon, if_pos hc, ← List.cons_append,
    takeWhile_append_eq hw hcs]

end Scan

namespace Lexer

variable {l : Lexer} {ts : List Token}

/-- The lexer behind `-R`. -/
def behindClient (x : String) : Lexer := ⟨⟨2, ' ' :: x.toList⟩, 0, [.normal], false, true⟩

/-- The first token of a source that starts with `-R`. -/
theorem next_client (x : String) :
    (condition ("-R " ++ x)).next = (.ok (.unaryOp "-R"), behindClient x) := by
  rw [condition, Cursor.ofText, String.toList_append]
  rfl

/-- The tokens of such a source are known from those behind `-R`. -/
theorem tokenizes_client_iff {x : String} : (condition ("-R " ++ x)).Tokenizes ts ↔
    ∃ us, ts = .unaryOp "-R" :: us ∧ (behindClient x).Tokenizes us :=
  tokenizes_cons_iff (next_client x) (by simp)

/-- A word in a reference is read. -/
theorem next_of_word {w cs : List Char} {opened : Nat} (hl : l.template = false)
    (hm : l.mode = .reference opened) (hr : l.cursor.rest = w ++ cs)
    (hw : ∀ c ∈ w, isWordChar c = true) (hne : w ≠ []) (hcs : nextIs isWordChar cs = false) :
    ∃ l', l.next = (.ok (.identifier (String.ofList w)), l') ∧ l'.cursor.rest = cs ∧
      l'.modes = l.modes ∧ l'.template = false := by
  have hstart : l.start.rest = w ++ cs := by
    refine start_of_blanks (b := []) nofun hr (fun _ ↦ ?_) fun _ _ _ ↦ rfl
    obtain ⟨c, w, rfl⟩ := List.exists_cons_of_ne_nil hne
    have hc := hw c List.mem_cons_self
    change isBlank c = false
    by_contra hblank
    rw [isWordChar_of_isBlank (by simpa using hblank)] at hc
    cases hc
  have hscan : l.scan = ⟨.ok (.identifier (String.ofList w)), w.length, .stay⟩ := by
    rw [scan, hm, hstart]
    exact Scan.reference_of_word hw hne hcs
  obtain ⟨l', hn, hr', hm', hl'⟩ :=
    next_of_token (atTemplateEnd_eq_false hl) (congrArg Scan.outcome hscan)
  rw [hstart, hscan, List.drop_left] at hr'
  rw [hscan] at hm'
  exact ⟨l', hn, hr', hm', hl'.trans hl⟩

/-- A brace closes a reference. -/
theorem next_of_brace {cs : List Char} {opened : Nat} (hl : l.template = false)
    (hm : l.mode = .reference opened) (hr : l.cursor.rest = '\x7d' :: cs) :
    ∃ l', l.next = (.ok .varEnd, l') ∧ l'.cursor.rest = cs ∧ l'.modes = l.modes.tail ∧
      l'.template = false := by
  have hstart : l.start.rest = '\x7d' :: cs :=
    start_of_blanks (b := []) nofun hr (fun _ ↦ rfl) fun _ _ _ ↦ rfl
  have hscan : l.scan = ⟨.ok .varEnd, 1, .leave⟩ := by
    rw [scan, hm, hstart]
    rfl
  obtain ⟨l', hn, hr', hm', hl'⟩ :=
    next_of_token (atTemplateEnd_eq_false hl) (congrArg Scan.outcome hscan)
  rw [hstart, hscan] at hr'
  rw [hscan] at hm'
  exact ⟨l', hn, hr', hm', hl'.trans hl⟩

/-- The tokens of the reference to the client address, and of an operator behind it. -/
theorem reads_address (op : String) {t : Token} (ht : t ≠ .eof)
    (hop : ∀ cs, nextIs isBlank (op.toList ++ cs) = false)
    (hscan : ∀ allowed start cs, Scan.normal allowed start (op.toList ++ ' ' :: cs) =
      ⟨.ok t, op.toList.length, .stay⟩) (x : String) :
    ∃ l, (condition ("%\x7bREMOTE_ADDR\x7d " ++ op ++ " " ++ x)).Reads
        (Phrase.behindReference "REMOTE_ADDR" t) l ∧
      l.cursor.rest = ' ' :: x.toList ∧ l.modes = [.normal] ∧ l.template = false := by
  let l₁ : Lexer := ⟨⟨2, "REMOTE_ADDR".toList ++ '\x7d' :: ' ' :: (op.toList ++ ' ' :: x.toList)⟩,
    0, [.reference 0, .normal], false, false⟩
  have hn₁ : (condition ("%\x7bREMOTE_ADDR\x7d " ++ op ++ " " ++ x)).next =
      (.ok .varBegin, l₁) := by
    rw [condition, Cursor.ofText, String.append_assoc, String.append_assoc, String.toList_append,
      String.toList_append, String.toList_append]
    rfl
  have hword : "REMOTE_ADDR".toList.all isWordChar = true := rfl
  obtain ⟨l₂, hn₂, hr₂, hm₂, hl₂⟩ :=
    next_of_word (l := l₁) rfl rfl rfl (List.all_eq_true.1 hword) (by simp) rfl
  obtain ⟨l₃, hn₃, hr₃, hm₃, hl₃⟩ := next_of_brace hl₂ (mode_of_modes hm₂) hr₂
  have hm : l₃.modes = [.normal] := hm₃.trans (congrArg List.tail hm₂)
  have hstart : l₃.start.rest = op.toList ++ ' ' :: x.toList :=
    start_of_blanks (b := [' ']) (List.forall_mem_singleton.2 rfl) hr₃ (fun _ ↦ hop _)
      fun _ _ h ↦ absurd ((mode_of_modes hm).symm.trans h) (by simp)
  obtain ⟨l₄, hn₄, hr₄, hm₄, hl₄⟩ := next_of_normal (t := t) hl₃ (mode_of_modes hm)
    (by rw [hstart]; exact hscan _ _ _)
  rw [hstart, List.drop_left] at hr₄
  exact ⟨l₄, .more hn₁ (by simp) (.more hn₂ (by simp) (.more hn₃ (by simp)
    (.more hn₄ ht (.done l₄)))), hr₄, hm₄.trans hm, hl₄⟩

end Lexer

/-! ## The same trees

The tokens of the two sources are known from those of `x`, and so are the trees. -/

namespace Expression

variable {source x : String} {options : ParseOptions} {e : Expr}

/-- The operator that `-R` stands for in front of `x`, with the address of the client before it: a
match if the first token of `x` is a regex literal, and else a test against a network. -/
def clientOperator (x : String) : String :=
  match (Lexer.condition ("-R " ++ x)).next.2.next.1 with
  | .ok (.regex _ _) => "=~"
  | _ => "-ipmatch"

/-- The tree of a source, from its tokens. -/
theorem root_eq_some_iff : (parse source options).toOption.map root = some e ↔
    ∃ ts, (Lexer.condition source).Tokenizes ts ∧
      Phrase.Disjunction options maxNestingDepth ts e := by
  constructor
  · intro h
    cases hp : parse source options with
    | error _ => rw [hp] at h; cases h
    | ok a =>
      rw [hp] at h
      obtain rfl := Option.some.inj h
      exact (disjunction_of_parse hp).2.2
  · rintro ⟨ts, hts, he⟩
    rw [parse_of_disjunction hts he]
    rfl

/-- `-R` in front of a regex literal. -/
theorem root_client_regex {pattern : String} {flag : Bool}
    (h : (Lexer.behindClient x).next.1 = .ok (.regex pattern flag)) :
    (parse ("-R " ++ x) options).toOption.map root = some e ↔
      (parse ("%\x7bREMOTE_ADDR\x7d " ++ "=~" ++ " " ++ x) options).toOption.map root = some e := by
  obtain ⟨l, hr, hrest, hm, hl⟩ :=
    Lexer.reads_address "=~" (t := .isMatch) (by simp) (fun _ ↦ rfl) (fun _ _ _ ↦ rfl) x
  have halike : (Lexer.behindClient x).Alike l := ⟨by rw [hm]; rfl, hl.symm, hr.regexAllowed.symm⟩
  have hstarts {ts : List Token} (hts : (Lexer.behindClient x).Tokenizes ts) :
      ∃ us, ts = .regex pattern flag :: us := by
    obtain ⟨us, rfl, -⟩ := (Lexer.tokenizes_cons_iff (Prod.ext h rfl) (by simp)).1 hts
    exact ⟨us, rfl⟩
  rw [root_eq_some_iff, root_eq_some_iff]
  constructor
  · rintro ⟨ts, hts, he⟩
    obtain ⟨us, rfl, hus⟩ := Lexer.tokenizes_client_iff.1 hts
    obtain ⟨vs, rfl⟩ := hstarts hus
    exact ⟨_, hr.tokenizes_iff.2 ⟨_, rfl, halike.tokenizes rfl hrest hus⟩,
      Phrase.disjunction_client_regex_iff.1 he⟩
  · rintro ⟨ts, hts, he⟩
    obtain ⟨us, rfl, hus⟩ := hr.tokenizes_iff.1 hts
    have hus' := halike.symm.tokenizes hl hrest.symm hus
    obtain ⟨vs, rfl⟩ := hstarts hus'
    exact ⟨_, Lexer.tokenizes_client_iff.2 ⟨_, rfl, hus'⟩,
      Phrase.disjunction_client_regex_iff.2 he⟩

/-- `-R` in front of anything else. -/
theorem root_client_block
    (h : ∀ pattern flag, (Lexer.behindClient x).next.1 ≠ .ok (.regex pattern flag)) :
    (parse ("-R " ++ x) options).toOption.map root = some e ↔
      (parse ("%\x7bREMOTE_ADDR\x7d " ++ "-ipmatch" ++ " " ++ x) options).toOption.map root =
        some e := by
  obtain ⟨l, hr, hrest, hm, hl⟩ :=
    Lexer.reads_address "-ipmatch" (t := .binaryOp "-ipmatch") (by simp) (fun _ ↦ rfl)
      (fun _ _ _ ↦ rfl) x
  have halike : (Lexer.behindClient x).forbid.Alike l :=
    ⟨by rw [hm]; rfl, hl.symm, hr.regexAllowed.symm⟩
  have htokens {ts : List Token} : (Lexer.behindClient x).forbid.Tokenizes ts ↔ l.Tokenizes ts :=
    ⟨halike.tokenizes rfl hrest, halike.symm.tokenizes hl hrest.symm⟩
  have hstarts {ts : List Token} (hts : (Lexer.behindClient x).Tokenizes ts)
      (pattern : String) (flag : Bool) : ts.head? ≠ some (.regex pattern flag) := by
    intro hhead
    obtain ⟨us, rfl⟩ := List.head?_eq_some_iff.1 hhead
    obtain ⟨_, hreads, -⟩ := hts
    cases hreads with
    | more hn _ _ => exact h pattern flag (congrArg Prod.fst hn)
  rw [root_eq_some_iff, root_eq_some_iff]
  obtain hsame | ⟨hnone, hword⟩ := Lexer.tokenizes_forbid (l := Lexer.behindClient x) rfl rfl rfl h
  · constructor
    · rintro ⟨ts, hts, he⟩
      obtain ⟨us, rfl, hus⟩ := Lexer.tokenizes_client_iff.1 hts
      exact ⟨_, hr.tokenizes_iff.2 ⟨_, rfl, htokens.1 ((hsame us).1 hus)⟩,
        (Phrase.disjunction_client_iff (hstarts hus)).1 he⟩
    · rintro ⟨ts, hts, he⟩
      obtain ⟨us, rfl, hus⟩ := hr.tokenizes_iff.1 hts
      have hus' := (hsame us).2 (htokens.2 hus)
      exact ⟨_, Lexer.tokenizes_client_iff.2 ⟨_, rfl, hus'⟩,
        (Phrase.disjunction_client_iff (hstarts hus')).2 he⟩
  · -- nothing is read behind `-R`, and what is read behind the operator is no condition
    constructor
    · rintro ⟨ts, hts, -⟩
      obtain ⟨us, -, hus⟩ := Lexer.tokenizes_client_iff.1 hts
      exact absurd hus (hnone us)
    · rintro ⟨ts, hts, he⟩
      obtain ⟨us, rfl, hus⟩ := hr.tokenizes_iff.1 hts
      obtain ⟨t, vs, rfl, ht⟩ := hword us (htokens.2 hus)
      exact absurd he.behind_word (by simp [ht])

/-- **`-R` is a shorthand and nothing more.**  Whatever `x` is, `-R` before it is read if and only
if the test that it stands for is read, a match or a test of the client address against a network,
and into the same tree. -/
theorem parse_clientTest (x : String) (options : ParseOptions) :
    (parse ("-R " ++ x) options).toOption.map root =
      (parse ("%\x7bREMOTE_ADDR\x7d " ++ clientOperator x ++ " " ++ x) options).toOption.map
        root := by
  refine Option.ext fun e ↦ ?_
  have hnext : (Lexer.condition ("-R " ++ x)).next.2 = Lexer.behindClient x :=
    congrArg Prod.snd (Lexer.next_client x)
  rw [clientOperator, hnext]
  split
  · next h => exact root_client_regex h
  · next h => exact root_client_block h

example : clientOperator "m#^10\\.#i || x" = "=~" ∧ clientOperator "m#10" = "-ipmatch" := by
  decide +kernel

end Expression

end RequestCondition

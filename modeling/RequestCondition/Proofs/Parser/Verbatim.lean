import RequestCondition.Evaluator.Basic
import RequestCondition.Proofs.Parser.Template

/-!
# Texts as literals

Every text can be spelled as a literal.  Four characters are special in a string: the backslash, the
quote, and the two that references start with; `escapeText` puts a backslash before each of them.
What stands between the quotes then holds nothing but text, so it is one token with the text itself
(`stringText_escape`), whatever the text looks like, and so it is in a template, as long as there is
no NUL in it.  `parse_escapeText` says what the literal is read into and what it evaluates to.

The induction is on the text, with one step for each of its characters.  A character that is special
is spelled as a pair, and the reader takes the pair off as one character; any other character is
spelled as it is.  That the escape of a special character stands for the character is a matter of
four cases (`unescape?_of_special`).

Two points need care.  An empty text has no token, since a lexer never reads empty text; so
`textTokens` and `textParts` are lists with one element or none.  And a NUL can be spelled in a
string as it is, where it is nothing special, but there is no way to spell it in a template, which
it would close.

The same characters are escaped in a template as in a string, although no quote is special there.
The escape of a quote stands for the quote in both.
-/

set_option autoImplicit false

namespace RequestCondition

/-! ## Escapes

One character first, in front of any rest, and then the text. -/

/-- How a character is spelled in a string with the quote `q`. -/
def escapeChar (q c : Char) : List Char :=
  if c = '\\' ∨ c = q ∨ c = '$' ∨ c = '%' then ['\\', c] else [c]

/-- How a text is spelled in a string with the quote `q`. -/
def escapeText (q : Char) (s : String) : String := String.ofList (s.toList.flatMap (escapeChar q))

section Escape

variable {q w c : Char} {s rest : List Char}

/-- The special characters can be escaped, and then stand for themselves. -/
theorem unescape?_of_special (hq : IsQuote q) (h : c = '\\' ∨ c = q ∨ c = '$' ∨ c = '%') :
    unescape? c = some c := by
  obtain rfl | rfl | rfl | rfl := h
  · rfl
  · exact hq.unescape?
  · rfl
  · rfl

/-- A pair of a backslash and a character that can be escaped is text. -/
theorem stringText_pair (hw : w ≠ '\\') {x : Char} (hc : unescape? c = some x) (cs : List Char) :
    stringText w ('\\' :: c :: cs) =
      ⟨x :: (stringText w cs).text, (stringText w cs).ending, (stringText w cs).taken + 2⟩ := by
  have hstop : stopsText w '\\' (c :: cs) = false :=
    Scan.stopsText_eq_false hw.symm (by simp) (by simp)
  rw [stringText.eq_def]
  simp only [hstop, Bool.false_eq_true, if_false, if_true, hc]

/-- A character that is not special is text. -/
theorem stringText_char (hslash : c ≠ '\\') (hquote : c ≠ w) (hgroup : c ≠ '$') (hvar : c ≠ '%')
    (cs : List Char) : stringText w (c :: cs) =
      ⟨c :: (stringText w cs).text, (stringText w cs).ending, (stringText w cs).taken + 1⟩ := by
  have hstop : stopsText w c cs = false :=
    Scan.stopsText_eq_false hquote (fun h ↦ hvar h.1) fun h ↦ hgroup h.1
  rw [stringText.eq_def]
  simp only [hstop, Bool.false_eq_true, if_false, if_neg hslash]

/-- **Escaped text is one run of text.**  The string is closed by `w`: that is the quote, or in a
template a NUL, which cannot be escaped.  So each character is read back from what it is written as,
and only `w` stops the run. -/
theorem stringText_escape (hq : IsQuote q) (hw : w ≠ '\\') (hs : w = q ∨ w ∉ s)
    (hrest : stringText w rest = ⟨[], .done, 0⟩) :
    stringText w (s.flatMap (escapeChar q) ++ rest) =
      ⟨s, .done, (s.flatMap (escapeChar q)).length⟩ := by
  induction s with
  | nil => exact hrest
  | cons c s ih =>
    have hs' : w = q ∨ w ∉ s := hs.imp_right fun h hmem ↦ h (List.mem_cons_of_mem c hmem)
    rw [List.flatMap_cons, escapeChar]
    by_cases hc : c = '\\' ∨ c = q ∨ c = '$' ∨ c = '%'
    · rw [if_pos hc, List.cons_append, List.cons_append, List.cons_append, List.cons_append,
        List.nil_append, stringText_pair hw (unescape?_of_special hq hc), ih hs']
      rfl
    · obtain ⟨hslash, hquote, hgroup, hvar⟩ : c ≠ '\\' ∧ c ≠ q ∧ c ≠ '$' ∧ c ≠ '%' := by
        simpa only [not_or] using hc
      have hcw : c ≠ w := by
        rintro rfl
        exact hs.elim hquote fun h ↦ h List.mem_cons_self
      rw [if_neg hc, List.cons_append, List.cons_append, List.nil_append,
        stringText_char hslash hcw hgroup hvar, ih hs']
      rfl

end Escape

/-! ## One token of text

What stands behind the text ends it: the quote of the string, or the end of the template. -/

/-- A run of text as tokens: an empty one is none. -/
def textTokens (s : String) : List Token := if s = "" then [] else [.strText s]

/-- A run of text as parts of a string. -/
def textParts (s : String) : List StringPart := if s = "" then [] else [.text s]

/-- The tokens of a text are the parts of a string with that text. -/
theorem parts_textTokens (s : String) : Phrase.Parts (textTokens s) (textParts s) := by
  rw [textTokens, textParts]
  split
  · exact .nil
  · exact .text s .nil

theorem Scan.string_of_stringText {w : Char} {opened start n : Nat} {cs text : List Char}
    (h : stringText w cs = ⟨text, .done, n⟩) (hn : n ≠ 0) :
    string w opened start cs = ⟨.ok (.strText (String.ofList text)), n, .stay⟩ := by
  cases cs with
  | nil => exact absurd (congrArg TextRun.taken h).symm hn
  | cons c cs =>
    have hstop : stopsText w c cs = false := by
      rw [Bool.eq_false_iff]
      intro hstop
      rw [stringText_cons_eq_iff.2 hstop] at h
      exact hn (congrArg TextRun.taken h).symm
    have hstop' := hstop
    rw [stopsText] at hstop'
    simp only [Bool.or_eq_false_iff, Bool.and_eq_false_iff, beq_eq_false_iff_ne] at hstop'
    obtain ⟨⟨hquote, hvar⟩, hgroup⟩ := hstop'
    rw [string, if_neg hquote, if_neg (by rw [not_and_or]; exact hvar.imp_right (by simp)),
      if_neg (by rw [not_and_or]; exact hgroup.imp_right (by simp)), h]

namespace Lexer

variable {l : Lexer} {q w : Char} {opened : Nat} {rest : List Char} {s : String}

/-- A lexer reads escaped text as the text. -/
theorem reads_escape (hm : l.mode = .string w opened) (hq : IsQuote q) (hw : w ≠ '\\')
    (hs : w = q ∨ w ∉ s.toList) (hrest : stringText w rest = ⟨[], .done, 0⟩)
    (hr : l.cursor.rest = s.toList.flatMap (escapeChar q) ++ rest) :
    ∃ l', l.Reads (textTokens s) l' ∧ l'.cursor.rest = rest ∧ l'.modes = l.modes ∧
      l'.template = l.template := by
  have hrun := stringText_escape hq hw hs hrest
  rw [← hr] at hrun
  rw [textTokens]
  split
  · next hempty =>
    subst hempty
    exact ⟨l, .done l, hr, rfl, rfl⟩
  next hne =>
  have hn : (s.toList.flatMap (escapeChar q)).length ≠ 0 := by
    intro hzero
    rw [hzero] at hrun
    -- a run that takes nothing says nothing
    obtain ⟨c, cs, hc⟩ := List.exists_cons_of_ne_nil fun h ↦ hne (String.toList_eq_nil_iff.1 h)
    rw [hc, List.flatMap_cons, List.length_append] at hzero
    have hpos : 0 < (escapeChar q c).length := by
      rw [escapeChar]
      split <;> exact Nat.succ_pos _
    omega
  have hend : l.atTemplateEnd = false := by
    rw [Bool.eq_false_iff]
    intro hend
    rw [atTemplateEnd, Bool.and_eq_true, List.isEmpty_iff] at hend
    rw [hr, List.append_eq_nil_iff] at hend
    exact hn (congrArg List.length hend.2.1)
  have hstart : l.start = l.cursor := by rw [start, hm]
  have hscan : l.scan = ⟨.ok (.strText s), (s.toList.flatMap (escapeChar q)).length, .stay⟩ := by
    rw [scan, hm, hstart]
    exact (Scan.string_of_stringText hrun hn).trans (by rw [String.ofList_toList])
  obtain ⟨l', hnext, hr', hm', ht⟩ := next_of_token hend (congrArg Scan.outcome hscan)
  rw [hscan, hstart, hr, List.drop_left] at hr'
  rw [hscan] at hm'
  exact ⟨l', .more hnext (by simp) (.done l'), hr', hm', ht⟩

/-- A quote closes a string and is the last token. -/
theorem next_of_quote (hm : l.modes = [.string q opened, .normal]) (ht : l.template = false)
    (hr : l.cursor.rest = [q]) :
    ∃ l', l.next = (.ok .strEnd, l') ∧ l'.next.1 = .ok .eof := by
  have hmode : l.mode = .string q opened := mode_of_modes hm
  have hstart : l.start.rest = [q] := by rw [start, hmode, hr]
  have hscan : l.scan = ⟨.ok .strEnd, 1, .leave⟩ := by
    rw [scan, hmode, hstart]
    exact if_pos rfl
  obtain ⟨l', hn, hr', hm', -⟩ :=
    next_of_token (atTemplateEnd_eq_false ht) (congrArg Scan.outcome hscan)
  rw [hstart, hscan] at hr'
  rw [hscan, hm] at hm'
  exact ⟨l', hn, (next_of_nil hr' (.inr (mode_of_modes hm'))).1⟩

/-- The tokens of a literal. -/
theorem tokenizes_enquote (hq : IsQuote q) (s : String) :
    (condition (enquote q (escapeText q s))).Tokenizes
      (.strBegin :: textTokens s ++ [.strEnd]) := by
  obtain ⟨opened, m, hn, hr, hm, ht⟩ := next_enquote hq (escapeText q s)
  have hw : q ≠ '\\' := by obtain rfl | rfl := hq <;> decide
  have hclose : stringText q [q] = ⟨[], .done, 0⟩ := stringText_cons_eq_iff.2 (by simp [stopsText])
  rw [escapeText, String.toList_ofList] at hr
  obtain ⟨m', hreads, hr', hm', ht'⟩ :=
    reads_escape (mode_of_modes hm) hq hw (.inl rfl) hclose hr
  obtain ⟨l, hn', hend⟩ := next_of_quote (hm'.trans hm) (ht'.trans ht) hr'
  exact ⟨l, .more hn (by simp) (hreads.trans (.more hn' (by simp) (.done l))), hend⟩

/-- The tokens of a template. -/
theorem tokenizes_template (hq : IsQuote q) (hnul : '\x00' ∉ s.toList) :
    (ofTemplate (escapeText q s)).Tokenizes (textTokens s) := by
  have hr : (ofTemplate (escapeText q s)).cursor.rest =
      s.toList.flatMap (escapeChar q) ++ [] := by
    rw [List.append_nil]
    exact String.toList_ofList
  obtain ⟨l, hreads, hr', hm, ht⟩ :=
    reads_escape (l := ofTemplate (escapeText q s)) rfl hq (by decide) (.inr hnul) rfl hr
  refine ⟨l, hreads, next_eq_eof_iff.2 (.inl ?_)⟩
  rw [atTemplateEnd, ht, hm, hr']
  rfl

end Lexer

/-! ## Reading and evaluating

The tokens of the literal are a condition by one rule, and a string without references evaluates to
its text in every environment. -/

namespace Expression

/-- A template is read into the parts that its tokens are. -/
theorem parseTemplate_of_parts {s : String} {ts : List Token} {ps : List StringPart}
    (hts : (Lexer.ofTemplate s).Tokenizes ts) (hps : Phrase.Parts ts ps) :
    parseTemplate s = .ok ⟨s, .template, .string ps⟩ := by
  obtain ⟨p, q, hp, hm, hq, -⟩ := Parser.ofLexer_of_tokenizes (o := {}) hts
  have htemplate : Parser.template p = .ok (.string ps) q := by
    rw [Parser.template, Parser.get_bind,
      Parser.bind_of_ok (Parser.moreParts_eq_ok (.inr rfl) hps hm hq hm.length_lt_fuel)]
    rfl
  rw [parseTemplate, hp]
  simp only [htemplate]

/-- A text without special characters is a condition. -/
theorem parse_textTokens {source s : String} (options : ParseOptions)
    (hts : (Lexer.condition source).Tokenizes (.strBegin :: textTokens s ++ [.strEnd])) :
    parse source options = .ok ⟨source, .condition, .string (textParts s)⟩ :=
  parse_of_disjunction hts
    (.one (.one (.comparison (.concat (.one (.string (parts_textTokens s)))))))

/-- A string of text evaluates to the text, and asks for nothing. -/
theorem eval_textParts (env : Environment) (s : String) (start : Captures) :
    env.eval (.string (textParts s)) start = ⟨.ok (.string s), start, []⟩ := by
  rw [textParts]
  split
  · next hs =>
    subst hs
    rw [Environment.eval, Environment.evalParts]
    rfl
  · rw [Environment.eval, Environment.evalParts, Environment.evalParts]
    have hjoin : String.join [s] = s := by simp [String.join]
    rw [← hjoin]
    rfl

/-- **Every text can be spelled as a literal.**  Between two quotes, its escaped form is read into a
string with the text as its only part, and into one without parts if the text is empty; as a
template, it is read into the same tree if there is no NUL in it.  Wherever the tree is evaluated,
its value is the text, the groups are left as they are, and nothing else happens. -/
theorem parse_escapeText {q : Char} (hq : IsQuote q) (s : String) :
    (∀ options, parse (enquote q (escapeText q s)) options =
      .ok ⟨enquote q (escapeText q s), .condition, .string (textParts s)⟩) ∧
    ('\x00' ∉ s.toList → parseTemplate (escapeText q s) =
      .ok ⟨escapeText q s, .template, .string (textParts s)⟩) ∧
    ∀ env start, Environment.eval env (.string (textParts s)) start =
      ⟨.ok (.string s), start, []⟩ :=
  ⟨fun options ↦ parse_textTokens options (Lexer.tokenizes_enquote hq s),
    fun hnul ↦ parseTemplate_of_parts (Lexer.tokenizes_template hq hnul) (parts_textTokens s),
    fun env start ↦ eval_textParts env s start⟩

/-- A text that looks like references, with both quotes and a backslash at its end. -/
theorem parse_escapeText_reference :
    let s := "$1%\x7ba\x7d\"'\\"
    let e := "\\$1\\%\x7ba\x7d\\\"'\\\\"
    IsQuote '"' ∧ '\x00' ∉ s.toList ∧
      parse (enquote '"' e) = .ok ⟨enquote '"' e, .condition, .string [.text s]⟩ ∧
      parseTemplate e = .ok ⟨e, .template, .string [.text s]⟩ := by
  intro s e
  have hnul : '\x00' ∉ s.toList := by decide
  have he : escapeText '"' s = e := by decide
  have hparts : textParts s = [.text s] := by decide
  obtain ⟨h, h', -⟩ := parse_escapeText (.inl rfl : IsQuote '"') s
  rw [he, hparts] at h h'
  exact ⟨.inl rfl, hnul, h _, h' hnul⟩

end Expression

end RequestCondition

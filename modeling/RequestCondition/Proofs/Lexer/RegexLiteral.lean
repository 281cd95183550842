import RequestCondition.Proofs.Lexer.Splice

/-!
# Regex literals

A regex literal stands between two delimiters.  In its body a backslash and the character behind it
belong together.  If that character is the delimiter, the pair stands for the delimiter alone; any
other pair stands for itself.  So a backslash can be taken off in one case only, and a pattern may
hold the delimiter, but not a pair of a backslash and the delimiter, nor half a pair at its end:
these are the patterns that are `Delimitable`.

`delimit` writes such a pattern down, and `regexBody_delimit` and `delimit_of_regexBody` say that it
is undone by reading and that nothing else is read.  `regexLiterals_lossless` says it of a lexer: of
both openings, a slash and an `m` with the delimiter behind it, and of the flag at the end.

`Delimitable` goes through a pattern as the reader goes through a body, by single characters and by
pairs, and so both inductions have the same three cases.  Neither the writer nor the predicate uses
the reader; that the two fit together is what is proved.

To know that there are no other regex tokens, every other way to a token has to be ruled out.  The
lemmas that end in `_ne_regex` do so for words, operators, signs and numbers.  For strings and
references nothing has to be done, since the list of answers has no regex token there
(`mode_of_ofRegex`).

Whether an `m` may open a literal is remembered by the lexer from one token to the next
(`regexAllowed_next`), so behind a run of tokens it is the last of them that decides.
-/

set_option autoImplicit false

namespace RequestCondition

/-! ## Bodies

The three equations of `delimit` and of `regexBody` are stated first, one for a pair, one for the
delimiter and one for any other character. -/

/-- The patterns that can be written between two delimiters `d`. -/
inductive Delimitable (d : Char) : List Char → Prop
  | nil : Delimitable d []
  | char {c : Char} {p : List Char} (hc : c ≠ '\\') (h : Delimitable d p) : Delimitable d (c :: p)
  | pair {e : Char} {p : List Char} (he : e ≠ d) (h : Delimitable d p) :
      Delimitable d ('\\' :: e :: p)

/-- The body of a literal with a given pattern: delimiters that are not half of a pair are
escaped. -/
def delimit (d : Char) : List Char → List Char
  | [] => []
  | c :: p =>
    if c = '\\' then
      match p with
      | [] => [c]
      | e :: p' => c :: e :: delimit d p'
    else if c = d then '\\' :: c :: delimit d p
    else c :: delimit d p

section Body

variable {d : Char} {p cs : List Char} {n : Nat}

theorem delimit_pair (e : Char) (p : List Char) :
    delimit d ('\\' :: e :: p) = '\\' :: e :: delimit d p := by
  rw [delimit.eq_def]
  rfl

/-- A delimiter is escaped. -/
theorem delimit_self (hd : d ≠ '\\') (p : List Char) :
    delimit d (d :: p) = '\\' :: d :: delimit d p := by
  rw [delimit.eq_def]
  exact (if_neg hd).trans (if_pos rfl)

theorem delimit_char {c : Char} (hc : c ≠ '\\') (hd : c ≠ d) (p : List Char) :
    delimit d (c :: p) = c :: delimit d p := by
  rw [delimit.eq_def]
  exact (if_neg hc).trans (if_neg hd)

/-- A delimiter ends the body. -/
theorem regexBody_self (d : Char) (cs : List Char) : regexBody d (d :: cs) = some ([], 0) := by
  rw [regexBody.eq_def]
  exact if_pos rfl

theorem regexBody_pair (hd : d ≠ '\\') (e : Char) (cs : List Char) :
    regexBody d ('\\' :: e :: cs) = (regexBody d cs).map fun (p, n) ↦
      (if e = d then e :: p else '\\' :: e :: p, n + 2) := by
  rw [regexBody.eq_def]
  exact (if_neg hd.symm).trans (if_pos rfl)

theorem regexBody_char {c : Char} (hc : c ≠ '\\') (hd : c ≠ d) (cs : List Char) :
    regexBody d (c :: cs) = (regexBody d cs).map fun (p, n) ↦ (c :: p, n + 1) := by
  rw [regexBody.eq_def]
  exact (if_neg hd).trans (if_neg hc)

/-- **A pattern that is written down is read again**, up to the delimiter that closes it. -/
theorem regexBody_delimit (hd : d ≠ '\\') (h : Delimitable d p) (cs : List Char) :
    regexBody d (delimit d p ++ d :: cs) = some (p, (delimit d p).length) := by
  induction h with
  | nil => exact regexBody_self d cs
  | @char c p hc h ih =>
    by_cases hcd : c = d
    · subst hcd
      rw [delimit_self hd, List.cons_append, List.cons_append, regexBody_pair hd, ih]
      simp
    · rw [delimit_char hc hcd, List.cons_append, regexBody_char hc hcd, ih]
      rfl
  | @pair e p he h ih =>
    rw [delimit_pair, List.cons_append, List.cons_append, regexBody_pair hd, ih]
    simp [he]

/-- **A pattern that is read can be written down**, and that is the body that was read.  The cases
are those of the reader: a backslash and another character, or a character that is no backslash and
not the delimiter. -/
theorem delimit_of_regexBody (hd : d ≠ '\\') (h : regexBody d cs = some (p, n)) :
    Delimitable d p ∧ n = (delimit d p).length ∧ cs = delimit d p ++ d :: cs.drop (n + 1) := by
  fun_induction regexBody d cs generalizing p n with
  | case1 => cases h
  | case2 cs =>
    cases h
    exact ⟨.nil, rfl, rfl⟩
  | case3 => cases h
  | case4 e cs hslash ih =>
    obtain ⟨⟨p', n'⟩, h', heq⟩ := Option.map_eq_some_iff.1 h
    obtain ⟨rfl, rfl⟩ := Prod.mk.inj heq
    obtain ⟨hp, hn, hcs⟩ := ih h'
    by_cases he : e = d
    · -- the escape is undone, so in the pattern the delimiter stands alone
      subst he
      rw [if_pos rfl, delimit_self hd]
      exact ⟨.char hd hp, by simp [hn], by simpa using hcs⟩
    · rw [if_neg he, delimit_pair]
      exact ⟨.pair he hp, by simp [hn], by simpa using hcs⟩
  | case5 c cs hcd hc ih =>
    obtain ⟨⟨p', n'⟩, h', heq⟩ := Option.map_eq_some_iff.1 h
    obtain ⟨rfl, rfl⟩ := Prod.mk.inj heq
    obtain ⟨hp, hn, hcs⟩ := ih h'
    rw [delimit_char hc hcd]
    exact ⟨.char hc hp, by simp [hn], by simpa using hcs⟩

end Body

/-! ## Flags

A flag is said independently of the function that looks for it. -/

/-- Whether a flag follows a literal: an `i` that is not the start of a longer word. -/
def Flagged (cs : List Char) : Prop := ∃ more, cs = 'i' :: more ∧ nextIs isWordChar more = false

/-- The reader finds a flag where there is one. -/
theorem hasIgnoreCaseFlag_iff {cs : List Char} : hasIgnoreCaseFlag cs = true ↔ Flagged cs := by
  rw [hasIgnoreCaseFlag.eq_def]
  split
  · next more =>
    rw [Bool.not_eq_true']
    constructor
    · exact fun h ↦ ⟨more, rfl, h⟩
    · rintro ⟨more', heq, h⟩
      obtain ⟨-, rfl⟩ := List.cons.inj heq
      exact h
  · next hne =>
    refine iff_of_false Bool.false_ne_true ?_
    rintro ⟨more, heq, -⟩
    exact hne more heq

/-! ## Literals at a place in a condition

What opens a literal, and what the scan makes of the body behind it. -/

namespace Scan

variable {d : Char} {opening cs p : List Char} {start : Nat} {allowed flag : Bool} {s : String}
  {t : Token}

/-- A pattern that has been written down becomes a regex token with that pattern. -/
theorem regex_delimit (hd : d ≠ '\\') (h : Delimitable d p) (start k : Nat) (cs : List Char) :
    regex start k d (delimit d p ++ d :: cs) =
      ⟨.ok (.regex (String.ofList p) (hasIgnoreCaseFlag cs)),
        k + (delimit d p).length + 1 + (hasIgnoreCaseFlag cs).toNat, .stay⟩ := by
  have hcs : (delimit d p ++ d :: cs).drop ((delimit d p).length + 1) = cs := by
    rw [← List.drop_drop, List.drop_left, List.drop_succ_cons, List.drop_zero]
  rw [regex, regexBody_delimit hd h]
  simp only [hcs]

/-- A regex token has a pattern that can be written down, and comes from that body. -/
theorem delimit_of_regex {k : Nat} (hd : d ≠ '\\')
    (h : (regex start k d cs).outcome = .ok (.regex s flag)) :
    ∃ after, Delimitable d s.toList ∧ cs = delimit d s.toList ++ d :: after ∧
      flag = hasIgnoreCaseFlag after := by
  rw [regex] at h
  split at h
  · cases h
  · next p n hbody =>
    obtain ⟨hs, hflag⟩ := Token.regex.inj (Except.ok.inj h)
    obtain ⟨hp, -, hcs⟩ := delimit_of_regexBody hd hbody
    rw [← hs, String.toList_ofList]
    exact ⟨_, hp, hcs, hflag.symm⟩

/-- What opens a literal with a given delimiter: a slash, or, where that is allowed, an `m` and the
delimiter. -/
inductive Opens (allowed : Bool) : Char → List Char → Prop
  | slash : Opens allowed '/' ['/']
  | letter {d : Char} (hallowed : allowed = true) (hd : d ∈ regexDelimiters) :
      Opens allowed d ['m', d]

theorem Opens.ne_backslash (h : Opens allowed d opening) : d ≠ '\\' := by
  cases h with
  | slash => decide
  | letter _ hd =>
    rintro rfl
    revert hd
    decide

/-- Behind either opening the body is read, and no other token starts in this way. -/
theorem normal_of_opens (h : Opens allowed d opening) (start : Nat) (cs : List Char) :
    normal allowed start (opening ++ cs) = regex start opening.length d cs := by
  cases h with
  | slash => simp [normal]
  | letter hallowed hd =>
    have hm : 'm' = 'm' ∧ allowed = true ∧ nextIs regexDelimiters.contains (d :: cs) = true :=
      ⟨rfl, hallowed, List.contains_iff_mem.2 hd⟩
    change normal allowed start ('m' :: d :: cs) = _
    rw [normal_of_isWordStart (by decide), plain, if_neg (by simp), if_neg (by simp), if_pos hm]
    rfl

theorem wordToken_ne_regex (word : String) : wordToken word ≠ .regex s flag := by
  rw [wordToken]
  cases h : numericWord? word with
  | none =>
    repeat' split
    all_goals simp
  | some t =>
    obtain ⟨op, rfl⟩ := numericWord?_eq_some h
    repeat' split
    all_goals simp

theorem dashToken_ne_regex (word : List Char) : dashToken word ≠ .regex s flag := by
  rw [dashToken]
  cases h : numericWord? (String.ofList word) with
  | none =>
    rw [Option.getD_none]
    split <;> simp
  | some t =>
    obtain ⟨op, rfl⟩ := numericWord?_eq_some h
    simp

theorem sign?_ne_regex {n : Nat} : sign? cs ≠ some (.regex s flag, n) := by
  rw [sign?.eq_def]
  split <;> simp

theorem number_ne_regex (negative : Bool) :
    (number start negative cs).outcome ≠ .ok (.regex s flag) := by
  rw [number]
  simp only
  intro h
  split at h <;> cases h

/-- In a condition a regex token comes from a literal. -/
theorem opens_of_normal (h : (normal allowed start cs).outcome = .ok (.regex s flag)) :
    ∃ d opening body, Opens allowed d opening ∧ cs = opening ++ body := by
  cases cs with
  | nil => cases h
  | cons c cs =>
    rw [normal] at h
    split at h
    · cases h
    split at h
    · cases h
    split at h
    · cases h
    split at h
    · next hc =>
      subst hc
      exact ⟨_, _, cs, .slash, rfl⟩
    split at h
    · next hsign =>
      obtain rfl := Except.ok.inj h
      exact absurd hsign sign?_ne_regex
    split at h
    · exact absurd h (number_ne_regex true)
    split at h
    · exact absurd (Except.ok.inj h) (dashToken_ne_regex _)
    split at h
    · next hm =>
      obtain ⟨rfl, hallowed, hd⟩ := hm
      cases cs with
      | nil => cases hd
      | cons d cs => exact ⟨d, _, cs, .letter hallowed (List.contains_iff_mem.1 hd), rfl⟩
    split at h
    · exact absurd (Except.ok.inj h) (wordToken_ne_regex _)
    split at h
    · exact absurd h (number_ne_regex false)
    · cases h

/-! ## No literals in strings and references

A literal with a delimiter of its choice may come in conditions only, behind tokens of
conditions. -/

/-- Whether a token has to do with regexes: it is one, or a literal with a delimiter of its choice
may follow it. -/
def OfRegex (t : Token) : Prop := t.allowsRegex = true ∨ ∃ s flag, t = .regex s flag

end Scan

/-! ## What a lexer reads

The facts about scans are now told of `next`, together with what is left for the lexer behind it. -/

namespace Lexer

open Scan (Opens OfRegex)

variable {l l' : Lexer} {t : Token} {d : Char} {opening p after : List Char} {s : String}
  {flag : Bool}

/-- No literals stand in strings and references. -/
theorem mode_of_ofRegex (h : l.scan.outcome = .ok t) (ht : OfRegex t) : l.mode = .normal := by
  have hans := l.scan_answered
  generalize l.scan = s, l.start.rest = cs, l.mode = m at h hans ⊢
  cases hans with
  | eof | plain _ _ _ _ | beginString _ => rfl
  | beginReference _ _ | endString | backref _ _ | text _ _ _ | endReference | argument _ _ _
  | name _ _ _ =>
    cases h
    simp [OfRegex, Token.allowsRegex] at ht
  | unclosed _ | strange _ _ => cases h

/-- Whether a literal with a delimiter of its choice may come next is settled by the token read
last. -/
theorem regexAllowed_next (h : l.next = (.ok t, l')) (ht : t ≠ .eof) :
    l'.regexAllowed = t.allowsRegex := by
  have hs := (of_token h ht).1
  cases hend : l.atTemplateEnd with
  | true =>
    rw [next_of_atTemplateEnd hend] at h
    exact absurd (Except.ok.inj (Prod.mk.inj h).1).symm ht
  | false =>
    rw [next_of_not_atTemplateEnd hend] at h
    rw [← (Prod.mk.inj h).2]
    change l.regexAllowedAfter l.scan.outcome = _
    rw [regexAllowedAfter.eq_def, hs]
    cases hallows : t.allowsRegex with
    | true => rw [mode_of_ofRegex hs (.inl hallows), ← hallows]
    | false =>
      split
      · exact hallows
      · rfl

/-- Behind some tokens, the last one decides. -/
theorem Reads.regexAllowed {ts : List Token} (h : l.Reads ts l') :
    l'.regexAllowed = (ts.getLast?.map Token.allowsRegex).getD l.regexAllowed := by
  induction h with
  | done l => rfl
  | @more l l₁ l₂ t ts hn ht _ ih =>
    rw [ih, regexAllowed_next hn ht, List.getLast?_cons]
    cases ts.getLast? <;> rfl

theorem atTemplateEnd_eq_false_of_start (h : l.start.rest ≠ []) : l.atTemplateEnd = false := by
  rw [Bool.eq_false_iff]
  intro hend
  rw [start_of_atTemplateEnd hend] at h
  rw [atTemplateEnd, Bool.and_eq_true, List.isEmpty_iff] at hend
  exact h hend.2

/-- A literal that stands before a lexer is read, up to its flag. -/
theorem next_of_literal (hm : l.mode = .normal) (hopens : Opens l.regexAllowed d opening)
    (hp : Delimitable d p) (hr : l.start.rest = opening ++ (delimit d p ++ d :: after)) :
    ∃ l', l.next = (.ok (.regex (String.ofList p) (hasIgnoreCaseFlag after)), l') ∧
      l'.cursor.rest = after.drop (hasIgnoreCaseFlag after).toNat := by
  have hscan : l.scan = ⟨.ok (.regex (String.ofList p) (hasIgnoreCaseFlag after)),
      opening.length + (delimit d p).length + 1 + (hasIgnoreCaseFlag after).toNat, .stay⟩ := by
    rw [scan, hm, hr]
    exact (Scan.normal_of_opens hopens _ _).trans
      (Scan.regex_delimit hopens.ne_backslash hp _ _ _)
  have hend : l.atTemplateEnd = false := atTemplateEnd_eq_false_of_start (by simp [hr])
  obtain ⟨l', hn, hr', -⟩ := next_of_token hend (congrArg Scan.outcome hscan)
  refine ⟨l', hn, ?_⟩
  rw [hr', hscan, hr, ← List.append_assoc, ← List.drop_drop, ← List.drop_drop,
    ← List.length_append, List.drop_left, List.drop_succ_cons, List.drop_zero]

/-- A regex token comes from a literal that stands before the lexer. -/
theorem literal_of_next (h : l.next = (.ok (.regex s flag), l')) :
    l.mode = .normal ∧ ∃ d opening after, Opens l.regexAllowed d opening ∧
      Delimitable d s.toList ∧ l.start.rest = opening ++ (delimit d s.toList ++ d :: after) ∧
      flag = hasIgnoreCaseFlag after := by
  have hs := (of_token h (by simp)).1
  have hm := mode_of_ofRegex hs (.inr ⟨s, flag, rfl⟩)
  rw [scan, hm] at hs
  obtain ⟨d, opening, body, hopens, hr⟩ := Scan.opens_of_normal hs
  rw [hr, Scan.normal_of_opens hopens] at hs
  obtain ⟨after, hp, hbody, hflag⟩ := Scan.delimit_of_regex hopens.ne_backslash hs
  exact ⟨hm, d, opening, after, hopens, hp, hbody ▸ hr, hflag⟩

/-- **Regex literals lose nothing.**  In a condition, an opening, the body of a pattern that can be
delimited, and the delimiter are read as one token with that pattern, up to the delimiter and the
flag behind it; the flag is an `i` that no character of words follows.  There are no other regex
tokens, so the pattern of each can be delimited, and its body is the one that stands in the source.
A literal with a delimiter of its choice may come behind `=~`, `!~` and tests of one operand. -/
theorem regexLiterals_lossless (l : Lexer) :
    (∀ d opening p after, l.mode = .normal → Opens l.regexAllowed d opening → Delimitable d p →
      l.start.rest = opening ++ (delimit d p ++ d :: after) →
        ∃ flag l', l.next = (.ok (.regex (String.ofList p) flag), l') ∧
          (flag = true ↔ Flagged after) ∧ l'.cursor.rest = after.drop flag.toNat) ∧
    (∀ s flag l', l.next = (.ok (.regex s flag), l') →
      l.mode = .normal ∧ ∃ d opening after, Opens l.regexAllowed d opening ∧
        Delimitable d s.toList ∧ l.start.rest = opening ++ (delimit d s.toList ++ d :: after) ∧
        (flag = true ↔ Flagged after) ∧ l'.cursor.rest = after.drop flag.toNat) ∧
    ∀ source ts, (condition source).Reads ts l →
      (l.regexAllowed = true ↔ ∃ t, ts.getLast? = some t ∧ t.allowsRegex = true) := by
  refine ⟨fun d opening p after hm hopens hp hr ↦ ?_, fun s flag l' h ↦ ?_, fun source ts h ↦ ?_⟩
  · obtain ⟨l', hn, hr'⟩ := next_of_literal hm hopens hp hr
    exact ⟨_, l', hn, hasIgnoreCaseFlag_iff, hr'⟩
  · obtain ⟨hm, d, opening, after, hopens, hp, hr, rfl⟩ := literal_of_next h
    obtain ⟨l'', hn, hr'⟩ := next_of_literal hm hopens hp hr
    rw [h] at hn
    obtain rfl := (Prod.mk.inj hn).2
    exact ⟨hm, d, opening, after, hopens, hp, hr, hasIgnoreCaseFlag_iff, hr'⟩
  · rw [h.regexAllowed]
    cases ts.getLast? <;> simp [condition]

/-- A literal behind `=~`: its pattern holds the delimiter and a pair of backslashes, and its flag
ends before the parenthesis. -/
theorem regexLiterals_lossless_hash : ∃ flag l',
    (condition "=~ m#a\\#\\\\#i)").next.2.next = (.ok (.regex "a#\\\\" flag), l') ∧
      (flag = true ↔ Flagged ['i', ')']) ∧ l'.cursor.rest = ['i', ')'].drop flag.toNat :=
  (regexLiterals_lossless (condition "=~ m#a\\#\\\\#i)").next.2).1 '#' ['m', '#']
    ['a', '#', '\\', '\\'] ['i', ')'] (by decide) (.letter (by decide) (by decide))
    (.char (by decide) (.char (by decide) (.pair (by decide) .nil))) (by decide)

end Lexer

end RequestCondition

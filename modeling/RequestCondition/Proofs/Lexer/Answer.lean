import Mathlib.Data.List.TakeWhile
import Mathlib.Tactic.SplitIfs
import RequestCondition.Lexer.Stream

/-!
# What a scan can answer

`Scan.normal`, `Scan.string` and `Scan.reference` decide what stands at a place by a long row of
tests, and most of what is said about a lexer depends on how these come out and on nothing else:
what the token says, what it does to the modes, how many characters it takes, where an error points.
So the row of tests is gone through once, here.  `Scan.Answered` is the list of what can come out of
it, and everything else about scans in general is read off this list, by cases.

The list is kept in three parts, by the mode.

* In a **condition** most tokens open and close nothing (`Token.isPlain`).  What such a token says
  is subject to `Token.Fits`: an identifier is a word and no keyword, a group is a digit, a dash and
  a word are an operator unless they compare numbers.  Two tokens are left, a quote and the opening
  of a reference, and the end of the source.
* In a **string** text is not empty, since it is read only where a character of it stands.
* In a **reference** a name may begin with a digit, and an argument has no brace.

An error may come up in any of them.  It leaves the modes as they are, and it points at the start of
what is open or at some character of what is left.

One fact is about two scans: places have no part in what is answered.  The list is therefore kept
for two scans of one text at once, made at the offsets `start` and `start'` in modes that differ in
places alone (`Mode.unplaced`).  What is said of one scan is the case where the two are the same,
and `Lexer.scan_answered` puts it in these words.
-/

set_option autoImplicit false

namespace RequestCondition

/-! ## Characters

The characters of words are those of ASCII: a letter of another alphabet starts no word and belongs
to none.  So these lemmas are about code points, and goals about characters can be left to `omega`.
-/

/-- The digits are those from `0` to `9`. -/
theorem isDigit_iff {c : Char} : isDigit c = true ↔ 48 ≤ c.toNat ∧ c.toNat ≤ 57 := by
  rw [isDigit, Bool.and_eq_true, decide_eq_true_eq, decide_eq_true_eq]
  rfl

/-- Words start with the letters from `a` to `z` and from `A` to `Z`, and with underscores. -/
theorem isWordStart_iff {c : Char} : isWordStart c = true ↔
    (97 ≤ c.toNat ∧ c.toNat ≤ 122 ∨ 65 ≤ c.toNat ∧ c.toNat ≤ 90) ∨ c.toNat = 95 := by
  have hletter : isLetter c = true ↔
      97 ≤ c.toNat ∧ c.toNat ≤ 122 ∨ 65 ≤ c.toNat ∧ c.toNat ≤ 90 := by
    rw [isLetter, Bool.or_eq_true, Bool.and_eq_true, Bool.and_eq_true, decide_eq_true_eq,
      decide_eq_true_eq, decide_eq_true_eq, decide_eq_true_eq]
    rfl
  have hunderscore : (c == '_') = true ↔ c.toNat = 95 := by
    rw [beq_iff_eq, ← Char.toNat_inj]
    rfl
  rw [isWordStart, Bool.or_eq_true, hletter, hunderscore]

/-- Words go on with these and with the digits from `0` to `9`. -/
theorem isWordChar_iff {c : Char} : isWordChar c = true ↔
    ((97 ≤ c.toNat ∧ c.toNat ≤ 122 ∨ 65 ≤ c.toNat ∧ c.toNat ≤ 90) ∨ c.toNat = 95) ∨
      48 ≤ c.toNat ∧ c.toNat ≤ 57 := by
  rw [isWordChar, Bool.or_eq_true, isWordStart_iff, isDigit_iff]

/-- What starts a word may also go on with one; digits are the only difference. -/
theorem isWordChar_of_isWordStart {c : Char} (h : isWordStart c = true) : isWordChar c = true := by
  rw [isWordChar, h, Bool.true_or]

/-- There are seven characters that may delimit a regex literal behind an `m`. -/
theorem mem_regexDelimiters_iff {d : Char} : d ∈ regexDelimiters ↔
    d = '#' ∨ d = '|' ∨ d = '!' ∨ d = ',' ∨ d = ';' ∨ d = ':' ∨ d = '@' := by
  simp only [regexDelimiters, List.mem_cons, List.not_mem_nil, or_false]

/-- The characters that quote strings. -/
def IsQuote (c : Char) : Prop := c = '"' ∨ c = '\''

theorem length_pos_of_nextIs {p : Char → Bool} {cs : List Char} (h : nextIs p cs = true) :
    0 < cs.length := by
  cases cs with
  | nil => cases h
  | cons c cs => exact Nat.succ_pos _

theorem length_takeWhile_le (p : Char → Bool) (cs : List Char) :
    (cs.takeWhile p).length ≤ cs.length :=
  (List.takeWhile_sublist p).length_le

/-! ## Words

What is called a word, an identifier or an operator here is said of the text alone, without the
functions that read it.  These are the notions in which later modules speak of tokens: what is known
of identifiers goes back to `IsIdentifier`, and how `wordToken` finds out does not come up again. -/

/-- A character that words start with, and characters of words behind it. -/
inductive IsWord : List Char → Prop
  | intro {c : Char} {cs : List Char} (hc : isWordStart c = true)
      (hcs : ∀ d ∈ cs, isWordChar d = true) : IsWord (c :: cs)

/-- The words that compare numbers, behind a dash or without one. -/
def numericWords : List String := ["eq", "ne", "lt", "le", "gt", "ge"]

/-- The words of a condition that are no identifiers. -/
def keywords : List String := ["true", "false", "and", "or", "not", "in"] ++ numericWords

/-- A word that is no keyword. -/
def IsIdentifier (name : String) : Prop := IsWord name.toList ∧ name ∉ keywords

/-- A dash and a letter or an underscore. -/
def IsUnaryOp (op : String) : Prop := ∃ c, isWordStart c = true ∧ op.toList = ['-', c]

/-- A dash and a word of two characters or more that does not compare numbers. -/
def IsBinaryOp (op : String) : Prop :=
  ∃ word : String, IsWord word.toList ∧ 2 ≤ word.length ∧ word ∉ numericWords ∧ op = "-" ++ word

/-- Characters of words, one at least: a digit may stand first. -/
def IsVarName (name : String) : Prop :=
  name ≠ "" ∧ ∀ c ∈ name.toList, isWordChar c = true

/-- What is cut off a source as a word is one. -/
theorem isWord_takeWhile {cs : List Char} (h : nextIs isWordStart cs = true) :
    IsWord (cs.takeWhile isWordChar) := by
  cases cs with
  | nil => cases h
  | cons c cs =>
    rw [List.takeWhile_cons, if_pos (isWordChar_of_isWordStart h)]
    exact .intro h fun _ ↦ List.mem_takeWhile_imp

/-! ## What a token says in a mode

Two things are asked of a token.  `Token.isPlain` is about what it does: a plain token neither opens
nor closes anything and belongs to conditions.  `Token.Fits` is about what it carries.  Both are
shown together for every token that a condition can give, since the same tests decide both. -/

/-- Whether a token leaves a condition a condition. -/
def Token.isPlain : Token → Bool
  | strBegin | strText _ | strEnd | varBegin | varArg _ | varEnd | eof => false
  | _ => true

theorem Token.ne_eof_of_isPlain {t : Token} (h : t.isPlain = true) : t ≠ .eof := by
  rintro rfl
  cases h

/-- Whether a token says what a token can say that is read in a mode. -/
def Token.Fits : Mode → Token → Prop
  | .reference _, .identifier name => IsVarName name
  | _, .identifier name => IsIdentifier name
  | _, .strText text => text ≠ ""
  | _, .varArg arg => '\x7d' ∉ arg.toList
  | _, .backref n => n ≤ 9
  | _, .unaryOp op => IsUnaryOp op
  | _, .binaryOp op => IsBinaryOp op
  | _, _ => True

theorem digitValue?_le {c : Char} {n : Nat} (h : digitValue? c = some n) : n ≤ 9 := by
  rw [digitValue?] at h
  split at h
  · next hc =>
    obtain rfl := Option.some.inj h
    have hle : c.toNat ≤ '9'.toNat := hc.2
    have h0 : '0'.toNat = 48 := rfl
    have h9 : '9'.toNat = 57 := rfl
    omega
  · cases h

theorem group_le (cs : List Char) : (cs.head?.bind digitValue?).getD 0 ≤ 9 := by
  cases h : cs.head?.bind digitValue? with
  | none => exact Nat.zero_le 9
  | some n =>
    obtain ⟨c, -, hc⟩ := Option.bind_eq_some_iff.1 h
    exact digitValue?_le hc

namespace Scan

/-- Every word that compares numbers becomes a comparison. -/
theorem numericWord?_eq_some {word : String} {t : Token} (h : numericWord? word = some t) :
    ∃ op, t = .compare op := by
  rw [numericWord?] at h
  repeat' split at h
  all_goals cases h <;> exact ⟨_, rfl⟩

theorem numericWord?_eq_none_iff {word : String} :
    numericWord? word = none ↔ word ∉ numericWords := by
  rw [numericWord?]
  split_ifs with h₁ h₂ h₃ h₄ h₅ h₆
  case neg => simp [numericWords, h₁, h₂, h₃, h₄, h₅, h₆]
  all_goals
    subst word
    decide

theorem wordToken_isPlain (word : String) : (wordToken word).isPlain = true := by
  rw [wordToken]
  repeat' split
  all_goals try rfl
  cases h : numericWord? word with
  | none => rfl
  | some t =>
    obtain ⟨op, rfl⟩ := numericWord?_eq_some h
    rfl

theorem dashToken_isPlain (word : List Char) : (dashToken word).isPlain = true := by
  rw [dashToken]
  cases h : numericWord? (String.ofList word) with
  | none =>
    rw [Option.getD_none]
    split <;> rfl
  | some t =>
    obtain ⟨op, rfl⟩ := numericWord?_eq_some h
    rfl

/-- A word that becomes an identifier is none of the keywords, since those have been tried before.
-/
theorem wordToken_fits {word : String} (h : IsWord word.toList) :
    (wordToken word).Fits .normal := by
  rw [wordToken]
  split_ifs with h₁ h₂ h₃ h₄ h₅ h₆
  case neg =>
    cases hn : numericWord? word with
    | some t =>
      obtain ⟨op, rfl⟩ := numericWord?_eq_some hn
      trivial
    | none =>
      refine ⟨h, ?_⟩
      rw [keywords, List.mem_append, not_or]
      exact ⟨by simp [h₁, h₂, h₃, h₄, h₅, h₆], numericWord?_eq_none_iff.1 hn⟩
  all_goals trivial

/-- A dash and a word become an operator of one operand or of two by the length of the word, and
neither if the word compares numbers. -/
theorem dashToken_fits {word : List Char} (h : IsWord word) : (dashToken word).Fits .normal := by
  rw [dashToken]
  cases hn : numericWord? (String.ofList word) with
  | some t =>
    obtain ⟨op, rfl⟩ := numericWord?_eq_some hn
    trivial
  | none =>
    rw [Option.getD_none]
    cases h with
    | @intro c cs hc hcs =>
      cases cs with
      | nil => exact ⟨c, hc, by simp⟩
      | cons d cs =>
        refine ⟨String.ofList (c :: d :: cs), ?_, ?_, numericWord?_eq_none_iff.1 hn, ?_⟩
        · simpa using IsWord.intro hc hcs
        · simp only [String.length_ofList, List.length_cons]
          omega
        · simp

/-- A sign is a token of a condition that carries nothing, and it is spelled with the characters
that it takes. -/
theorem sign?_ok {cs : List Char} {t : Token} {n : Nat} (h : sign? cs = some (t, n)) :
    t.isPlain = true ∧ t.Fits .normal ∧ 0 < n ∧ n ≤ cs.length := by
  rw [sign?.eq_def] at h
  split at h <;> cases h
  all_goals exact ⟨rfl, trivial, by decide, by simp⟩

/-! ## How much a literal takes

A literal is taken whole or not at all, so the count of a scan is checked here for each kind of
literal: it takes a character at least, and never more than there are.  Progress and coverage rest
on nothing else. -/

/-- A body ends before the delimiter that closes it. -/
theorem regexBody_lt {delimiter : Char} {cs pattern : List Char} {n : Nat}
    (h : regexBody delimiter cs = some (pattern, n)) : n < cs.length := by
  fun_induction regexBody delimiter cs generalizing pattern n with
  | case1 => cases h
  | case2 =>
    cases h
    exact Nat.succ_pos _
  | case3 => cases h
  | case4 _ cs' _ ih =>
    obtain ⟨⟨pattern', n'⟩, h', heq⟩ := Option.map_eq_some_iff.1 h
    obtain ⟨-, rfl⟩ := Prod.mk.inj heq
    have := ih h'
    simp only [List.length_cons]
    omega
  | case5 _ cs _ _ ih =>
    obtain ⟨⟨pattern', n'⟩, h', heq⟩ := Option.map_eq_some_iff.1 h
    obtain ⟨-, rfl⟩ := Prod.mk.inj heq
    have := ih h'
    simp only [List.length_cons]
    omega

theorem toNat_hasIgnoreCaseFlag_le (cs : List Char) :
    (hasIgnoreCaseFlag cs).toNat ≤ cs.length := by
  cases cs with
  | nil => exact Nat.le_refl _
  | cons c cs =>
    have := Bool.toNat_le (hasIgnoreCaseFlag (c :: cs))
    rw [List.length_cons]
    omega

theorem numberText_of_digit {point : Bool} {c : Char} {cs : List Char} (h : isDigit c = true) :
    numberText point (c :: cs) = c :: numberText point cs := by
  rw [numberText, if_pos h]

theorem length_numberText_le (point : Bool) (cs : List Char) :
    (numberText point cs).length ≤ cs.length := by
  fun_induction numberText point cs with
  | case1 => exact Nat.le_refl _
  | case2 _ _ _ _ ih => exact Nat.succ_le_succ ih
  | case3 _ _ _ _ _ ih => exact Nat.succ_le_succ ih
  | case4 => exact Nat.zero_le _

/-- What does not stop a run of text is neither the quote nor the opening of a reference. -/
theorem stopsText_eq_false {quote c : Char} {cs : List Char} (hquote : ¬ c = quote)
    (hvar : ¬ (c = '%' ∧ nextIs (· == '\x7b') cs = true))
    (hgroup : ¬ (c = '$' ∧ nextIs isDigit cs = true)) : stopsText quote c cs = false := by
  rw [stopsText]
  simp only [Bool.or_eq_false_iff, Bool.and_eq_false_iff, beq_eq_false_iff_ne]
  refine ⟨⟨hquote, ?_⟩, ?_⟩
  · rw [not_and_or] at hvar
    exact hvar.imp_right (by simp)
  · rw [not_and_or] at hgroup
    exact hgroup.imp_right (by simp)

theorem stringText_taken {quote c : Char} {cs : List Char} (h : stopsText quote c cs = false) :
    0 < (stringText quote (c :: cs)).taken := by
  rw [stringText.eq_def]
  simp only [h, Bool.false_eq_true, if_false]
  split
  · split
    · exact Nat.one_pos
    · split
      · exact Nat.one_pos
      · exact Nat.succ_pos _
  · exact Nat.succ_pos _

theorem stringText_taken_le (quote : Char) (cs : List Char) :
    (stringText quote cs).taken ≤ cs.length := by
  fun_induction stringText quote cs with
  | case1 => exact Nat.le_refl _
  | case2 => exact Nat.zero_le _
  | case3 => simp
  | case4 => simp
  | case5 _ _ _ _ _ _ ih =>
    simp only [List.length_cons]
    exact Nat.succ_le_succ (Nat.succ_le_succ ih)
  | case6 _ _ _ _ _ ih => exact Nat.succ_le_succ ih

/-- The text at the front of what is left of a string is not empty, if it does not stop at once. -/
theorem stringText_text_ne_nil {quote c : Char} {cs : List Char}
    (h : stopsText quote c cs = false) (hend : (stringText quote (c :: cs)).ending = .done) :
    (stringText quote (c :: cs)).text ≠ [] := by
  rw [stringText.eq_def] at hend ⊢
  simp only [h, Bool.false_eq_true, if_false] at hend ⊢
  split at hend
  · next hc =>
    rw [if_pos hc]
    split at hend
    · cases hend
    · split at hend
      · cases hend
      · exact List.cons_ne_nil _ _
  · next hc =>
    rw [if_neg hc]
    exact List.cons_ne_nil _ _

end Scan

/-! ## The list

One constructor stands for one kind of answer.  The bounds in the constructors are those that the
functions establish on the way, so no later proof has to look at the text again to know that a scan
does not run past the end. -/

/-- Where a string or a reference was opened. -/
def Mode.opened : Mode → Nat
  | normal => 0
  | string _ start => start
  | reference start => start

/-- The mode at no place in particular. -/
def Mode.unplaced : Mode → Mode
  | normal => normal
  | string quote _ => string quote 0
  | reference _ => reference 0

namespace Scan

/-- What two scans answer in front of `cs`, made at the offsets `start` and `start'` and in modes
that differ in places alone. -/
inductive Answered (start start' : Nat) : Mode → Mode → List Char → Scan → Scan → Prop
  | eof : Answered start start' .normal .normal [] ⟨.ok .eof, 0, .stay⟩ ⟨.ok .eof, 0, .stay⟩
  /-- A token of a condition that opens nothing. -/
  | plain {t : Token} {n : Nat} {cs : List Char} (ht : t.isPlain = true) (hfits : t.Fits .normal)
      (hn : 0 < n) (hle : n ≤ cs.length) :
      Answered start start' .normal .normal cs ⟨.ok t, n, .stay⟩ ⟨.ok t, n, .stay⟩
  | beginString {c : Char} {cs : List Char} (hc : IsQuote c) :
      Answered start start' .normal .normal (c :: cs)
        ⟨.ok .strBegin, 1, .enter (.string c start)⟩ ⟨.ok .strBegin, 1, .enter (.string c start')⟩
  /-- A reference is opened in a condition or in a string. -/
  | beginReference {m m' : Mode} {cs : List Char} (hm : ∀ opened, m ≠ .reference opened)
      (hle : 2 ≤ cs.length) :
      Answered start start' m m' cs
        ⟨.ok .varBegin, 2, .enter (.reference start)⟩ ⟨.ok .varBegin, 2, .enter (.reference start')⟩
  | endString {quote : Char} {opened opened' : Nat} {cs : List Char} :
      Answered start start' (.string quote opened) (.string quote opened') (quote :: cs)
        ⟨.ok .strEnd, 1, .leave⟩ ⟨.ok .strEnd, 1, .leave⟩
  | backref {quote : Char} {opened opened' k : Nat} {cs : List Char} (hk : k ≤ 9)
      (hle : 2 ≤ cs.length) :
      Answered start start' (.string quote opened) (.string quote opened') cs
        ⟨.ok (.backref k), 2, .stay⟩ ⟨.ok (.backref k), 2, .stay⟩
  | text {quote : Char} {opened opened' n : Nat} {s : String} {cs : List Char} (hs : s ≠ "")
      (hn : 0 < n) (hle : n ≤ cs.length) :
      Answered start start' (.string quote opened) (.string quote opened') cs
        ⟨.ok (.strText s), n, .stay⟩ ⟨.ok (.strText s), n, .stay⟩
  | endReference {opened opened' : Nat} {cs : List Char} :
      Answered start start' (.reference opened) (.reference opened') ('\x7d' :: cs)
        ⟨.ok .varEnd, 1, .leave⟩ ⟨.ok .varEnd, 1, .leave⟩
  | argument {opened opened' n : Nat} {arg : String} {cs : List Char}
      (harg : '\x7d' ∉ arg.toList) (hn : 0 < n) (hle : n ≤ cs.length) :
      Answered start start' (.reference opened) (.reference opened') cs
        ⟨.ok (.varArg arg), n, .stay⟩ ⟨.ok (.varArg arg), n, .stay⟩
  | name {opened opened' n : Nat} {name : String} {cs : List Char} (hname : IsVarName name)
      (hn : 0 < n) (hle : n ≤ cs.length) :
      Answered start start' (.reference opened) (.reference opened') cs
        ⟨.ok (.identifier name), n, .stay⟩ ⟨.ok (.identifier name), n, .stay⟩
  /-- An error about what is open points at where that was opened. -/
  | unclosed {m m' : Mode} {cause : LexCause} {n : Nat} {cs : List Char} (hle : n ≤ cs.length) :
      Answered start start' m m' cs
        ⟨.error ⟨cause, m.opened⟩, n, .stay⟩ ⟨.error ⟨cause, m'.opened⟩, n, .stay⟩
  /-- Any other error points at a character. -/
  | strange {m m' : Mode} {cause : LexCause} {n : Nat} {cs : List Char} (k : Nat)
      (hle : n ≤ cs.length) :
      Answered start start' m m' cs
        ⟨.error ⟨cause, start + utf8Length (cs.take k)⟩, n, .stay⟩
        ⟨.error ⟨cause, start' + utf8Length (cs.take k)⟩, n, .stay⟩

variable {start start' : Nat} {cs all : List Char}

/-! ### Conditions -/

theorem regex_answered {opening : Nat} (delimiter : Char)
    (hall : all.length = opening + cs.length) :
    Answered start start' .normal .normal all (regex start opening delimiter cs)
      (regex start' opening delimiter cs) := by
  rw [regex, regex]
  cases h : regexBody delimiter cs with
  | none => exact .strange 0 (by omega)
  | some r =>
    obtain ⟨pattern, n⟩ := r
    have hn := regexBody_lt h
    have hflag := toNat_hasIgnoreCaseFlag_le (cs.drop (n + 1))
    rw [List.length_drop] at hflag
    exact .plain rfl trivial (by omega) (by omega)

theorem number_answered {negative : Bool} (h : nextIs isDigit cs = true)
    (hall : all.length = negative.toNat + cs.length) :
    Answered start start' .normal .normal all (number start negative cs)
      (number start' negative cs) := by
  obtain _ | ⟨c, cs⟩ := cs
  · cases h
  have hle := length_numberText_le false (c :: cs)
  have hpos : 0 < (numberText false (c :: cs)).length := by
    rw [numberText_of_digit h]
    exact Nat.succ_pos _
  rw [number, number]
  cases Decimal.ofText (String.ofList (if negative = true then
      '-' :: numberText false (c :: cs) else numberText false (c :: cs))) with
  | ok d => exact .plain rfl trivial (by omega) (by omega)
  | error e => exact .strange 0 (by omega)

/-- The part of `normal` that is about words and numbers. -/
def plain (allowed : Bool) (start : Nat) (c : Char) (cs : List Char) : Scan :=
  if c = '-' ∧ nextIs isDigit cs then number start true cs
  else if c = '-' ∧ nextIs isWordStart cs then
    let word := cs.takeWhile isWordChar
    ⟨.ok (dashToken word), 1 + word.length, .stay⟩
  else if c = 'm' ∧ allowed ∧ nextIs regexDelimiters.contains cs then
    regex start 2 (cs.headD '/') cs.tail
  else if isWordStart c then
    let word := (c :: cs).takeWhile isWordChar
    ⟨.ok (wordToken (String.ofList word)), word.length, .stay⟩
  else if isDigit c then number start false (c :: cs)
  else ⟨.error ⟨.strangeCharacter c, start⟩, 0, .stay⟩

/-- Words and numbers come last among the tests, and an error about a character comes if they fail
as well. -/
theorem plain_answered (allowed : Bool) (c : Char) :
    Answered start start' .normal .normal (c :: cs) (plain allowed start c cs)
      (plain allowed start' c cs) := by
  rw [plain, plain]
  split
  · next h => exact number_answered h.2 (Nat.add_comm _ _)
  split
  · next h =>
    have hle := length_takeWhile_le isWordChar cs
    exact .plain (dashToken_isPlain _) (dashToken_fits (isWord_takeWhile h.2)) (by omega)
      (by rw [List.length_cons]; omega)
  split
  · next h =>
    have hpos := length_pos_of_nextIs h.2.2
    exact regex_answered _ (by rw [List.length_cons, List.length_tail]; omega)
  split
  · next h =>
    refine .plain (wordToken_isPlain _) (wordToken_fits ?_) ?_ (length_takeWhile_le _ _)
    · rw [String.toList_ofList]
      exact isWord_takeWhile h
    · rw [List.takeWhile_cons, if_pos (isWordChar_of_isWordStart h)]
      exact Nat.succ_pos _
  split
  · next h => exact number_answered h (Nat.zero_add _).symm
  · exact .strange 0 (Nat.zero_le _)

theorem normal_cons (allowed : Bool) (start : Nat) (c : Char) (cs : List Char) :
    normal allowed start (c :: cs) =
      if c = '"' ∨ c = '\'' then ⟨.ok .strBegin, 1, .enter (.string c start)⟩
      else if c = '%' ∧ nextIs (· == '\x7b') cs then ⟨.ok .varBegin, 2, .enter (.reference start)⟩
      else if c = '$' ∧ nextIs isDigit cs then
        ⟨.ok (.backref ((cs.head?.bind digitValue?).getD 0)), 2, .stay⟩
      else if c = '/' then regex start 1 '/' cs
      else
        match sign? (c :: cs) with
        | some (t, n) => ⟨.ok t, n, .stay⟩
        | none => plain allowed start c cs := rfl

/-- **What a condition can answer.**  The first character is enough to see which kind of token it
is, except that some signs need the second one as well. -/
theorem normal_answered (allowed : Bool) :
    Answered start start' .normal .normal cs (normal allowed start cs)
      (normal allowed start' cs) := by
  cases cs with
  | nil => exact .eof
  | cons c cs =>
    rw [normal_cons, normal_cons]
    split
    · exact .beginString ‹_›
    split
    · next h =>
      have hpos := length_pos_of_nextIs h.2
      exact .beginReference nofun (Nat.succ_le_succ hpos)
    split
    · next h =>
      have hpos := length_pos_of_nextIs h.2
      exact .plain rfl (group_le _) Nat.two_pos (Nat.succ_le_succ hpos)
    split
    · exact regex_answered _ (Nat.add_comm _ _)
    cases h : sign? (c :: cs) with
    | none => exact plain_answered _ _
    | some r =>
      obtain ⟨ht, hfits, hn, hle⟩ := sign?_ok h
      exact .plain ht hfits hn hle

/-! ### Strings and references -/

/-- **What a string can answer.**  An error about a bad escape points behind the text before it,
which is why errors point at some character of what is left and not at its start. -/
theorem string_answered (quote : Char) (opened opened' : Nat) :
    Answered start start' (.string quote opened) (.string quote opened') cs
      (string quote opened start cs) (string quote opened' start' cs) := by
  cases cs with
  | nil => exact .unclosed (Nat.zero_le _)
  | cons c cs =>
    rw [string, string]
    split
    · next h =>
      subst h
      exact .endString
    next hquote =>
    split
    · next h =>
      have hpos := length_pos_of_nextIs h.2
      exact .beginReference nofun (Nat.succ_le_succ hpos)
    next hvar =>
    split
    · next h =>
      have hpos := length_pos_of_nextIs h.2
      exact .backref (group_le _) (Nat.succ_le_succ hpos)
    next hgroup =>
    have hstop := stopsText_eq_false hquote hvar hgroup
    have hle := stringText_taken_le quote (c :: cs)
    simp only
    cases hend : (stringText quote (c :: cs)).ending with
    | done =>
      have htext := stringText_text_ne_nil hstop hend
      exact .text (fun h ↦ htext (String.ofList_eq_empty_iff.1 h)) (stringText_taken hstop) hle
    | cutOff => exact .unclosed hle
    | badEscape e => exact .strange _ hle

/-- **What a reference can answer.**  Blanks are passed over, a name is a word, an argument reaches
up to the brace, and the source may end before that. -/
theorem reference_answered (opened opened' : Nat) :
    Answered start start' (.reference opened) (.reference opened') cs
      (reference opened start cs) (reference opened' start' cs) := by
  cases cs with
  | nil => exact .unclosed (Nat.zero_le _)
  | cons c cs =>
    rw [reference, reference]
    split
    · next h =>
      subst h
      exact .endReference
    split
    · simp only
      split
      · next hlt =>
        refine .argument (fun h ↦ ?_) (by omega) (by rw [List.length_cons]; omega)
        rw [String.toList_ofList] at h
        simpa using List.mem_takeWhile_imp h
      · exact .unclosed (by rw [List.length_cons]; omega)
    split
    · next hc =>
      have hword : (c :: cs).takeWhile isWordChar ≠ [] := by
        rw [List.takeWhile_cons, if_pos hc]
        exact List.cons_ne_nil _ _
      refine .name ⟨fun h ↦ hword (String.ofList_eq_empty_iff.1 h), ?_⟩
        (List.length_pos_iff.2 hword) (length_takeWhile_le _ _)
      rw [String.toList_ofList]
      exact fun _ ↦ List.mem_takeWhile_imp
    · exact .strange 0 (Nat.zero_le _)

end Scan

/-! ## The scans of a lexer

What a lexer answers is a scan at the start of its next token, so the list holds of it.  The facts
below are read off the list one after another: each is a case split, and most of its cases are
closed at once. -/

namespace Lexer

variable {l l' : Lexer} {t : Token} {e : LexError}

/-- Lexers in modes that differ in places alone scan the same text alike. -/
theorem scans_answered (hmode : l.mode.unplaced = l'.mode.unplaced)
    (hallowed : l.regexAllowed = l'.regexAllowed) (hr : l.start.rest = l'.start.rest) :
    Scan.Answered l.start.offset l'.start.offset l.mode l'.mode l.start.rest l.scan l'.scan := by
  rw [scan, scan, hallowed, hr]
  generalize l.mode = m at hmode ⊢
  generalize l'.mode = m' at hmode ⊢
  cases m <;> cases m' <;> cases hmode
  · exact Scan.normal_answered _
  · exact Scan.string_answered _ _ _
  · exact Scan.reference_answered _ _

/-- **What a lexer can answer**: the list, for a single scan. -/
theorem scan_answered (l : Lexer) : Scan.Answered l.start.offset l.start.offset l.mode l.mode
    l.start.rest l.scan l.scan :=
  scans_answered rfl rfl rfl

/-- No scan takes more than what is left. -/
theorem scan_taken_le (l : Lexer) : l.scan.taken ≤ l.start.rest.length := by
  have h := l.scan_answered
  generalize l.scan = s, l.start.rest = cs, l.mode = m at h
  cases h with
  | eof => exact Nat.le_refl 0
  | beginString _ | endString | endReference => exact Nat.le_add_left _ _
  | plain _ _ _ hle | beginReference _ hle | backref _ hle | text _ _ hle | argument _ _ hle
  | name _ _ hle | unclosed hle | strange _ hle => exact hle

/-- A scan gives the end of the source where nothing is left of a condition, and a token that takes
a character anywhere else. -/
theorem scan_ok (h : l.scan.outcome = .ok t) :
    t = .eof ∧ l.mode = .normal ∧ l.start.rest = [] ∨
      t ≠ .eof ∧ l.start.rest ≠ [] ∧ 0 < l.scan.taken := by
  have hans := l.scan_answered
  have hle := l.scan_taken_le
  generalize l.scan = s at h hans hle ⊢
  have hrest (hn : 0 < s.taken) : l.start.rest ≠ [] := List.length_pos_iff.1 (by omega)
  generalize l.start.rest = cs, l.mode = m at hans hrest ⊢
  cases hans with
  | eof => exact .inl ⟨(Except.ok.inj h).symm, rfl, rfl⟩
  | plain ht _ hn _ =>
    cases h
    exact .inr ⟨Token.ne_eof_of_isPlain ht, hrest hn, hn⟩
  | text _ hn _ | argument _ hn _ | name _ hn _ =>
    cases h
    exact .inr ⟨by simp, hrest hn, hn⟩
  | beginString _ | beginReference _ _ | endString | backref _ _ | endReference =>
    cases h
    exact .inr ⟨by simp, hrest (Nat.succ_pos _), Nat.succ_pos _⟩
  | unclosed _ | strange _ _ => cases h

/-- An error leaves the modes as they are. -/
theorem scan_error (h : l.scan.outcome = .error e) : l.scan.shift = .stay := by
  have hans := l.scan_answered
  generalize l.scan = s, l.start.rest = cs, l.mode = m at h hans ⊢
  cases hans with
  | unclosed _ | strange _ _ => rfl
  | _ => cases h

/-- An error points at the start of what is open, or at a character of what is left. -/
theorem offset_of_scan_error (h : l.scan.outcome = .error e) :
    e.offset = l.mode.opened ∨
      ∃ n, e.offset = l.start.offset + utf8Length (l.start.rest.take n) := by
  have hans := l.scan_answered
  generalize l.scan = s, l.start.rest = cs, l.mode = m at h hans ⊢
  cases hans with
  | unclosed _ =>
    cases h
    exact .inl rfl
  | strange k _ =>
    cases h
    exact .inr ⟨k, rfl⟩
  | _ => cases h

/-- **A token says what it can say in the mode that it is read in.**  Each case of the list has this
of its token, so it is read off the case. -/
theorem fits_of_scan (h : l.scan.outcome = .ok t) : t.Fits l.mode := by
  have hans := l.scan_answered
  generalize l.scan = s, l.start.rest = cs, l.mode = m at h hans ⊢
  cases hans with
  | plain _ hfits _ _ =>
    cases h
    exact hfits
  | backref hk _ =>
    cases h
    exact hk
  | text hs _ _ =>
    cases h
    exact hs
  | argument harg _ _ =>
    cases h
    exact harg
  | name hname _ _ =>
    cases h
    exact hname
  | beginReference _ _ =>
    cases h
    cases m <;> trivial
  | eof | beginString _ | endString | endReference =>
    cases h
    trivial
  | unclosed _ | strange _ _ => cases h

end Lexer

end RequestCondition

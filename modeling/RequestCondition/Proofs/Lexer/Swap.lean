import RequestCondition.Proofs.Lexer.Literal

/-!
# What a token depends on

A token is known when it ends, or a character or two behind that.  So the rest of a source can be
replaced by another without a change to the tokens before it, as long as the new rest does not go on
with the last of them: `Scan.normal_swap`, `Scan.string_swap` and `Scan.reference_swap` say for each
mode when that is so.

Each mode has its own list of what can go wrong.

* `Loose`, for a condition: a word, a number, a flag behind a regex literal and the signs of two
  characters go on with what comes next.  An `m` opens a literal if a delimiter comes next, so this
  is in the list as well.
* `Closed`, for a string: text goes on, or a percent or dollar sign before the rest becomes special.
* `Braced`, for a reference: a name goes on, or the brace that an argument needs goes away.

The lists are about the two rests alone and not about the token before them.  A list for each kind
of token would be more exact, and nothing would be gained, because the rests that later proofs put
in either start with a blank or share two characters with the old one (`Loose.of_soft`,
`Loose.cons_cons`).

A token that enters a mode or leaves one is known by its own characters, so the hypothesis is only
asked for where the modes stay.
-/

set_option autoImplicit false

namespace RequestCondition

variable {a x y : List Char}

/-! ## Conditions

The signs are the one place where the source is matched two characters deep.  `signAt?` is the same
function with the second character asked for by a test, and so a new rest can be compared by what it
answers to two questions. -/

/-- `y` goes on with a token of a condition only where `x` does. -/
structure Loose (x y : List Char) : Prop where
  word : nextIs isWordChar x = false → nextIs isWordChar y = false
  number (point : Bool) : numberText point x = [] → numberText point y = []
  flag : hasIgnoreCaseFlag x = false → hasIgnoreCaseFlag y = false
  equals : nextIs (· == '=') x = false → nextIs (· == '=') y = false
  tilde : nextIs (· == '~') x = false → nextIs (· == '~') y = false
  delimiter : nextIs regexDelimiters.contains x = false →
    nextIs regexDelimiters.contains y = false

namespace Loose

/-- No token goes on behind a blank. -/
theorem of_soft (h : Soft y) : Loose x y where
  word _ := h.nextIs fun _ ↦ isWordChar_of_isBlank
  number point _ := by
    cases y with
    | nil => rfl
    | cons c y =>
      have hc := Soft.cons_iff.1 h
      have hpoint : (c == '.') = false := by simpa using ne_of_isBlank hc (by decide)
      rw [numberText, isDigit_of_isBlank hc, hpoint]
      rfl
  flag _ := hasIgnoreCaseFlag_eq_false (h.nextIs fun _ ↦ isWordChar_of_isBlank)
  equals _ := h.nextIs fun _ hc ↦ by simpa using ne_of_isBlank hc (by decide)
  tilde _ := h.nextIs fun _ hc ↦ by simpa using ne_of_isBlank hc (by decide)
  delimiter _ := h.nextIs fun c hc ↦ by
    rw [Bool.eq_false_iff]
    intro hd
    have hmem : c ∈ regexDelimiters := by simpa using hd
    have hall : regexDelimiters.all (!isBlank ·) = true := rfl
    have hblank := List.all_eq_true.1 hall c hmem
    rw [hc] at hblank
    cases hblank

/-- Behind a character the rest matters in two places only. -/
theorem cons {c : Char} {v w : List Char}
    (hdigit : nextIs isDigit v = false → nextIs isDigit w = false)
    (hflag : c = 'i' → nextIs isWordChar v = false) : Loose (c :: v) (c :: w) where
  word h := h
  number point h := by
    rw [numberText] at h ⊢
    by_cases hc : isDigit c = true
    · rw [if_pos hc] at h
      cases h
    · rw [if_neg hc] at h ⊢
      by_cases hpoint : (c == '.' && !point && nextIs isDigit v) = true
      · rw [if_pos hpoint] at h
        cases h
      · rw [if_neg]
        rw [Bool.not_eq_true, Bool.and_eq_false_iff] at hpoint ⊢
        exact hpoint.imp_right hdigit
  flag h := by
    by_cases hc : c = 'i'
    · rw [hc, hasIgnoreCaseFlag, hflag hc] at h
      cases h
    · rw [hasIgnoreCaseFlag.eq_def]
      split
      · rename_i heq
        exact absurd (List.cons.inj heq).1 hc
      · rfl
  equals h := h
  tilde h := h
  delimiter h := h

/-- Two characters are all that matters. -/
theorem cons_cons {c d : Char} {v w : List Char} : Loose (c :: d :: v) (c :: d :: w) where
  word h := h
  number point h := by
    rw [numberText] at h ⊢
    by_cases hc : isDigit c = true
    · rw [if_pos hc] at h
      cases h
    · rw [if_neg hc] at h ⊢
      have hd : nextIs isDigit (d :: w) = nextIs isDigit (d :: v) := rfl
      rw [hd]
      by_cases hpoint : (c == '.' && !point && nextIs isDigit (d :: v)) = true
      · rw [if_pos hpoint] at h
        cases h
      · rw [if_neg hpoint]
  flag h := by
    rw [hasIgnoreCaseFlag.eq_def] at h ⊢
    split at h
    · rename_i heq
      obtain ⟨rfl, rfl⟩ := List.cons.inj heq
      exact h
    · rename_i hne
      split
      · rename_i heq
        obtain ⟨rfl, -⟩ := List.cons.inj heq
        exact absurd rfl (hne _)
      · rfl
  equals h := h
  tilde h := h
  delimiter h := h

end Loose

namespace Scan

variable {allowed : Bool} {start : Nat} {t : Token}

/-- A regex literal stays what it is if its flag does. -/
theorem regex_swap {opening : Nat} {delimiter : Char}
    (hok : (regex start opening delimiter (a ++ x)).outcome = .ok t)
    (htaken : (regex start opening delimiter (a ++ x)).taken = opening + a.length)
    (hxy : Loose x y) :
    regex start opening delimiter (a ++ y) = regex start opening delimiter (a ++ x) := by
  rw [regex] at hok htaken
  rw [regex, regex]
  cases h : regexBody delimiter (a ++ x) with
  | none =>
    rw [h] at hok
    cases hok
  | some r =>
    obtain ⟨pattern, n⟩ := r
    rw [h] at htaken
    simp only at htaken
    have hn : n + 1 ≤ a.length := by omega
    rw [regexBody_swap h hn]
    simp only [List.drop_append_of_le_length hn] at htaken ⊢
    have hflag : hasIgnoreCaseFlag (a.drop (n + 1) ++ y) =
        hasIgnoreCaseFlag (a.drop (n + 1) ++ x) := by
      have hlen : (a.drop (n + 1)).length =
          (hasIgnoreCaseFlag (a.drop (n + 1) ++ x)).toNat := by
        rw [List.length_drop]
        omega
      generalize a.drop (n + 1) = b at hlen ⊢
      cases hf : hasIgnoreCaseFlag (b ++ x) with
      | false =>
        rw [hf] at hlen
        obtain rfl := List.length_eq_zero_iff.1 hlen
        exact hxy.flag hf
      | true =>
        rw [hf] at hlen
        obtain ⟨c, rfl⟩ := List.length_eq_one_iff.1 hlen
        rw [List.singleton_append, hasIgnoreCaseFlag.eq_def] at hf
        split at hf
        · rename_i heq
          obtain ⟨rfl, rfl⟩ := List.cons.inj heq
          have hx : nextIs isWordChar x = false := by simpa using hf
          rw [List.singleton_append, hasIgnoreCaseFlag, hxy.word hx]
          rfl
        · cases hf
    rw [hflag]

/-- A number that is read stays what it is, the dash in front of it included. -/
theorem number_swap {negative : Bool}
    (htaken : (number start negative (a ++ x)).taken = negative.toNat + a.length)
    (hxy : Loose x y) : number start negative (a ++ y) = number start negative (a ++ x) := by
  rw [number] at htaken
  simp only at htaken
  obtain ⟨hx, hy⟩ := numberText_swap (Nat.add_left_cancel htaken) hxy.number
  rw [number, number, hx, hy]

/-- The sign that starts with a character, by what comes next. -/
def signAt? (next : Char → Bool) : Char → Option (Token × Nat)
  | '(' => some (.lparen, 1)
  | ')' => some (.rparen, 1)
  | '\x7b' => some (.lbrace, 1)
  | '\x7d' => some (.rbrace, 1)
  | ',' => some (.comma, 1)
  | '.' => some (.dot, 1)
  | '&' => if next '&' then some (.and, 2) else none
  | '|' => if next '|' then some (.or, 2) else none
  | '=' =>
    if next '=' then some (.compare ⟨false, .equal⟩, 2)
    else if next '~' then some (.isMatch, 2)
    else some (.compare ⟨false, .equal⟩, 1)
  | '!' =>
    if next '=' then some (.compare ⟨false, .notEqual⟩, 2)
    else if next '~' then some (.isNoMatch, 2)
    else some (.not, 1)
  | '<' =>
    if next '=' then some (.compare ⟨false, .lessEqual⟩, 2) else some (.compare ⟨false, .less⟩, 1)
  | '>' =>
    if next '=' then some (.compare ⟨false, .greaterEqual⟩, 2)
    else some (.compare ⟨false, .greater⟩, 1)
  | _ => none

theorem nextIs_eq_false_of {d : Char} {cs : List Char} (h : ∀ tail, cs = d :: tail → False) :
    nextIs (· == d) cs = false := by
  cases cs with
  | nil => rfl
  | cons c cs =>
    rw [nextIs, beq_eq_false_iff_ne]
    rintro rfl
    exact h cs rfl

/-- A sign depends on its first character and on two questions about what comes next. -/
theorem sign?_cons (c : Char) (cs : List Char) :
    sign? (c :: cs) = signAt? (fun d ↦ nextIs (· == d) cs) c := by
  rw [sign?.eq_def]
  split
  case h_19 h₁ h₂ h₃ h₄ h₅ h₆ h₇ h₈ _ _ h₉ _ _ h₁₀ _ h₁₁ _ h₁₂ =>
    rw [signAt?.eq_def]
    split
    · exact absurd rfl (h₁ cs)
    · exact absurd rfl (h₂ cs)
    · exact absurd rfl (h₃ cs)
    · exact absurd rfl (h₄ cs)
    · exact absurd rfl (h₅ cs)
    · exact absurd rfl (h₆ cs)
    · rw [nextIs_eq_false_of fun tail h ↦ h₇ tail (h ▸ rfl)]
      rfl
    · rw [nextIs_eq_false_of fun tail h ↦ h₈ tail (h ▸ rfl)]
      rfl
    · exact absurd rfl (h₉ cs)
    · exact absurd rfl (h₁₀ cs)
    · exact absurd rfl (h₁₁ cs)
    · exact absurd rfl (h₁₂ cs)
    · rfl
  all_goals
    rename_i heq
    obtain ⟨rfl, rfl⟩ := List.cons.inj heq
  case h_11 _ hequals htilde =>
    rw [signAt?, nextIs_eq_false_of hequals, nextIs_eq_false_of htilde]
    rfl
  case h_14 _ hequals htilde =>
    rw [signAt?, nextIs_eq_false_of hequals, nextIs_eq_false_of htilde]
    rfl
  case h_16 _ hequals | h_18 _ hequals =>
    rw [signAt?, nextIs_eq_false_of hequals]
    rfl
  all_goals rfl

/-- A sign of one character stays what it is if nothing comes that it could go on with. -/
theorem signAt?_one {next next' : Char → Bool} {c : Char} (h : signAt? next c = some (t, 1))
    (hequals : next '=' = false → next' '=' = false)
    (htilde : next '~' = false → next' '~' = false) : signAt? next' c = some (t, 1) := by
  rw [signAt?.eq_def] at h ⊢
  split at h
  case h_7 | h_8 => split at h <;> cases h
  case h_9 | h_10 =>
    cases heq : next '=' with
    | true =>
      rw [heq] at h
      cases h
    | false =>
      cases htil : next '~' with
      | true =>
        rw [heq, htil] at h
        cases h
      | false =>
        rw [heq, htil] at h
        simp only [hequals heq, htilde htil]
        exact h
  case h_11 | h_12 =>
    cases heq : next '=' with
    | true =>
      rw [heq] at h
      cases h
    | false =>
      rw [heq] at h
      simp only [hequals heq]
      exact h
  all_goals exact h

/-- A sign stays what it is if the new rest does not make it longer. -/
theorem sign?_swap {c : Char} (h : sign? (c :: (a ++ x)) = some (t, a.length + 1))
    (hxy : Loose x y) : sign? (c :: (a ++ y)) = some (t, a.length + 1) := by
  rw [sign?_cons] at h ⊢
  cases a with
  | nil => exact signAt?_one h hxy.equals hxy.tilde
  | cons d a => exact h

theorem regex_shift (start opening : Nat) (delimiter : Char) (cs : List Char) :
    (regex start opening delimiter cs).shift = .stay := by
  rw [regex]
  split <;> rfl

/-! ## Words and numbers of conditions

The last part of `normal`, which has been given a name of its own in the list of answers. -/

variable {c : Char}

theorem plain_shift (allowed : Bool) (start : Nat) (c : Char) (cs : List Char) :
    (plain allowed start c cs).shift = .stay := by
  rw [plain]
  repeat' split
  all_goals first | rfl | exact regex_shift _ _ _ _

/-- What starts like a word is one, unless it is an `m` in front of a delimiter. -/
theorem plain_of_word {cs : List Char} (hc : isWordStart c = true)
    (hm : ¬ (c = 'm' ∧ allowed = true ∧ nextIs regexDelimiters.contains cs = true)) :
    plain allowed start c cs = ⟨.ok (wordToken (String.ofList ((c :: cs).takeWhile isWordChar))),
      ((c :: cs).takeWhile isWordChar).length, .stay⟩ := by
  have hdash (p : Prop) : ¬ (c = '-' ∧ p) := by
    rintro ⟨rfl, -⟩
    revert hc
    decide
  rw [plain, if_neg (hdash _), if_neg (hdash _), if_neg hm, if_pos hc]

theorem plain_of_digit {cs : List Char} (hc : isDigit c = true) :
    plain allowed start c cs = number start false (c :: cs) := by
  have hdash (p : Prop) : ¬ (c = '-' ∧ p) := by
    rintro ⟨rfl, -⟩
    revert hc
    decide
  have hword := not_isWordStart_of_isDigit hc
  have hm (p : Prop) : ¬ (c = 'm' ∧ p) := by
    rintro ⟨rfl, -⟩
    exact hword (by decide)
  rw [plain, if_neg (hdash _), if_neg (hdash _), if_neg (hm _), if_neg hword, if_pos hc]

/-- A negative number stays what it is: there is a digit behind the dash, and it belongs to it. -/
theorem plain_swap_number (hnumber : c = '-' ∧ nextIs isDigit (a ++ x) = true)
    (htaken : (plain allowed start c (a ++ x)).taken = a.length + 1) (hxy : Loose x y) :
    plain allowed start c (a ++ y) = plain allowed start c (a ++ x) := by
  rw [plain, if_pos hnumber] at htaken
  rw [plain, plain, if_pos hnumber]
  have hbody : (numberText false (a ++ x)).length = a.length := by
    simp only [number, Bool.toNat_true] at htaken
    omega
  have ha : a ≠ [] := by
    rintro rfl
    have := nextIs_isDigit_of_numberText (List.length_eq_zero_iff.1 hbody)
    rw [hnumber.2] at this
    cases this
  rw [nextIs_append ha isDigit x y, if_pos hnumber]
  exact number_swap (htaken.trans (Nat.add_comm _ _)) hxy

/-- An operator that starts with a dash stays what it is, as a word does. -/
theorem plain_swap_dash (hnumber : ¬(c = '-' ∧ nextIs isDigit (a ++ x) = true))
    (hdash : c = '-' ∧ nextIs isWordStart (a ++ x) = true)
    (htaken : (plain allowed start c (a ++ x)).taken = a.length + 1) (hxy : Loose x y) :
    plain allowed start c (a ++ y) = plain allowed start c (a ++ x) := by
  rw [plain, if_neg hnumber, if_pos hdash] at htaken
  rw [plain, plain, if_neg hnumber, if_pos hdash]
  have hword : ((a ++ x).takeWhile isWordChar).length = a.length := by
    simp only at htaken
    omega
  have ha : a ≠ [] := by
    rintro rfl
    have := length_takeWhile_pos (nextIs_isWordChar_of_isWordStart hdash.2)
    rw [hword] at this
    exact Nat.lt_irrefl _ this
  obtain ⟨hx, hy⟩ := takeWhile_swap hword hxy.word
  rw [nextIs_append ha isDigit x y, nextIs_append ha isWordStart x y, if_neg hnumber,
    if_pos hdash, hx, hy]

/-- What does not open an `m` literal does not do so in front of a rest that is loose. -/
theorem opensRegex_swap (hxy : Loose x y)
    (h : ¬(c = 'm' ∧ allowed = true ∧ nextIs regexDelimiters.contains (a ++ x) = true)) :
    ¬(c = 'm' ∧ allowed = true ∧ nextIs regexDelimiters.contains (a ++ y) = true) := by
  cases a with
  | nil =>
    rintro ⟨hc, hallowed, hy⟩
    refine h ⟨hc, hallowed, ?_⟩
    by_contra hx
    rw [List.nil_append, hxy.delimiter (by simpa using hx)] at hy
    cases hy
  | cons d a => exact h

/-- A word, a number or an `m` literal stays what it is in front of a rest that is loose.  The cases
are those of the lexer, in its order. -/
theorem plain_swap (hok : (plain allowed start c (a ++ x)).outcome = .ok t)
    (htaken : (plain allowed start c (a ++ x)).taken = a.length + 1) (hxy : Loose x y) :
    plain allowed start c (a ++ y) = plain allowed start c (a ++ x) := by
  by_cases hnumber : c = '-' ∧ nextIs isDigit (a ++ x) = true
  · exact plain_swap_number hnumber htaken hxy
  by_cases hdash : c = '-' ∧ nextIs isWordStart (a ++ x) = true
  · exact plain_swap_dash hnumber hdash htaken hxy
  by_cases hregex : c = 'm' ∧ allowed = true ∧ nextIs regexDelimiters.contains (a ++ x) = true
  · rw [plain, if_neg hnumber, if_neg hdash, if_pos hregex] at hok htaken
    rw [plain, plain, if_neg hnumber, if_neg hdash, if_pos hregex]
    cases a with
    | nil =>
      rw [regex] at htaken
      split at htaken
      · simp only [List.length_nil] at htaken
        omega
      · simp only [List.length_nil] at htaken
        omega
    | cons d a =>
      have ha := List.cons_ne_nil d a
      rw [nextIs_append ha isDigit x y, nextIs_append ha isWordStart x y,
        nextIs_append ha regexDelimiters.contains x y, if_neg hnumber, if_neg hdash, if_pos hregex]
      refine regex_swap hok ?_ hxy
      rw [List.length_cons] at htaken
      exact htaken.trans (by omega)
  by_cases hword : isWordStart c = true
  · rw [plain_of_word hword hregex] at htaken
    rw [plain_of_word hword hregex, plain_of_word hword (opensRegex_swap hxy hregex)]
    obtain ⟨hx, hy⟩ := takeWhile_swap (a := c :: a) htaken hxy.word
    rw [List.cons_append] at hx hy
    rw [hx, hy]
  by_cases hdigit : isDigit c = true
  · rw [plain_of_digit hdigit] at htaken
    rw [plain_of_digit hdigit, plain_of_digit hdigit]
    exact number_swap (a := c :: a) (htaken.trans (Nat.zero_add _).symm) hxy
  · rw [plain, if_neg hnumber, if_neg hdash, if_neg hregex, if_neg hword, if_neg hdigit] at hok
    cases hok

/-! ## Tokens of conditions

The parts are put together in the order of the tests. -/

/-- A percent sign, a dollar sign or half of a sign of two characters is no token of a condition. -/
theorem normal_of_not_opens {cs : List Char}
    (hc : c = '%' ∧ nextIs (· == '\x7b') cs = false ∨ c = '$' ∧ nextIs isDigit cs = false ∨
      c = '&' ∧ nextIs (· == '&') cs = false ∨ c = '|' ∧ nextIs (· == '|') cs = false) :
    (normal allowed start (c :: cs)).outcome ≠ .ok t := by
  rw [normal]
  obtain ⟨rfl, h⟩ | ⟨rfl, h⟩ | ⟨rfl, h⟩ | ⟨rfl, h⟩ := hc <;>
    simp [h, sign?_cons, signAt?, isWordStart, isLetter, isDigit]

/-- A character that starts no sign starts none in front of another rest; the two halves of `&&` and
`||` are the exceptions. -/
theorem signAt?_none {next next' : Char → Bool} (h : signAt? next c = none) (hand : c ≠ '&')
    (hor : c ≠ '|') : signAt? next' c = none := by
  rw [signAt?.eq_def] at h ⊢
  split at h
  case h_7 => exact absurd rfl hand
  case h_8 => exact absurd rfl hor
  case h_9 | h_10 =>
    split at h
    · cases h
    · split at h <;> cases h
  case h_11 | h_12 => split at h <;> cases h
  all_goals exact h

/-- What is no sign does not become one.  Half of `&&` or `||` could, but it is no token to begin
with. -/
theorem sign?_eq_none_swap (h : sign? (c :: (a ++ x)) = none)
    (hand : c = '&' → nextIs (· == '&') (a ++ x) = true)
    (hor : c = '|' → nextIs (· == '|') (a ++ x) = true) : sign? (c :: (a ++ y)) = none := by
  rw [sign?_cons] at h ⊢
  by_cases ha : a = []
  · subst ha
    refine signAt?_none h ?_ ?_
    · rintro rfl
      rw [signAt?, hand rfl] at h
      cases h
    · rintro rfl
      rw [signAt?, hor rfl] at h
      cases h
  · simp only [nextIs_append ha _ x y]
    exact h

/-- **A token of a condition does not depend on what comes behind it**, as long as nothing comes
that it could go on with.  Tokens that open a string or a reference go on with nothing. -/
theorem normal_swap (hok : (normal allowed start (c :: (a ++ x))).outcome = .ok t)
    (htaken : (normal allowed start (c :: (a ++ x))).taken = a.length + 1)
    (hxy : (normal allowed start (c :: (a ++ x))).shift = .stay → Loose x y) :
    normal allowed start (c :: (a ++ y)) = normal allowed start (c :: (a ++ x)) := by
  have hopens := mt normal_of_not_opens (not_not_intro hok)
  simp only [not_or, not_and, Bool.not_eq_false] at hopens
  obtain ⟨hpercent, hdollar, hand, hor⟩ := hopens
  rw [normal] at hok htaken hxy
  rw [normal, normal]
  by_cases hquote : c = '"' ∨ c = '\''
  · rw [if_pos hquote, if_pos hquote]
  rw [if_neg hquote] at hok htaken hxy ⊢
  rw [if_neg hquote]
  by_cases hp : c = '%'
  · have hx : c = '%' ∧ nextIs (· == '\x7b') (a ++ x) = true := ⟨hp, hpercent hp⟩
    rw [if_pos hx] at htaken ⊢
    have ha : a ≠ [] := by rintro rfl; cases htaken
    rw [nextIs_append ha _ x y, if_pos hx]
  have hp' (cs : List Char) : ¬ (c = '%' ∧ nextIs (· == '\x7b') cs = true) := fun h ↦ hp h.1
  rw [if_neg (hp' _)] at hok htaken hxy ⊢
  rw [if_neg (hp' _)]
  by_cases hd : c = '$'
  · have hx : c = '$' ∧ nextIs isDigit (a ++ x) = true := ⟨hd, hdollar hd⟩
    rw [if_pos hx] at htaken ⊢
    have ha : a ≠ [] := by rintro rfl; cases htaken
    rw [nextIs_append ha _ x y, if_pos hx]
    cases a with
    | nil => exact absurd rfl ha
    | cons d a => rfl
  have hd' (cs : List Char) : ¬ (c = '$' ∧ nextIs isDigit cs = true) := fun h ↦ hd h.1
  rw [if_neg (hd' _)] at hok htaken hxy ⊢
  rw [if_neg (hd' _)]
  by_cases hslash : c = '/'
  · rw [if_pos hslash] at hok htaken hxy ⊢
    rw [if_pos hslash]
    exact regex_swap hok (htaken.trans (Nat.add_comm _ _)) (hxy (regex_shift _ _ _ _))
  rw [if_neg hslash] at hok htaken hxy ⊢
  rw [if_neg hslash]
  cases hsign : sign? (c :: (a ++ x)) with
  | some r =>
    obtain ⟨u, n⟩ := r
    rw [hsign] at htaken hxy
    obtain rfl : n = a.length + 1 := htaken
    rw [sign?_swap hsign (hxy rfl)]
  | none =>
    rw [hsign] at hok htaken hxy
    rw [sign?_eq_none_swap hsign hand hor]
    exact plain_swap hok htaken (hxy (plain_shift _ _ _ _))

/-- What starts like a word is a word, unless it is a regex literal. -/
theorem normal_of_isWordStart {cs : List Char} (hc : isWordStart c = true) :
    normal allowed start (c :: cs) = plain allowed start c cs := by
  have hne {d : Char} (hd : isWordStart d = false) : c ≠ d := by
    rintro rfl
    rw [hd] at hc
    cases hc
  have hsign : sign? (c :: cs) = none := by
    rw [sign?_cons, signAt?.eq_def]
    split <;> first | rfl | exact absurd hc (by decide)
  rw [normal, if_neg (not_or.2 ⟨hne (by decide), hne (by decide)⟩),
    if_neg fun h ↦ hne (by decide) h.1, if_neg fun h ↦ hne (by decide) h.1,
    if_neg (hne (by decide)),
    hsign]
  rfl

/-- A word of the single letter `i` ends before what is not a part of words. -/
theorem nextIs_of_normal {cs : List Char} (htaken : (normal allowed start ('i' :: cs)).taken = 1) :
    nextIs isWordChar cs = false := by
  rw [normal_of_isWordStart (by decide), plain_of_word (by decide) (by simp), List.takeWhile_cons,
    if_pos (by decide)] at htaken
  exact takeWhile_eq_nil_iff.1 (List.length_eq_zero_iff.1 (Nat.succ.inj htaken))

/-! ## Tokens of strings -/

/-- **A token of a string does not depend on what comes behind it**, as long as that is no more text
where the token is text.  Text is read up to a character that stops it, and the new rest has to
begin with such a character as well. -/
theorem string_swap {quote : Char} {opened : Nat}
    (hok : (string quote opened start (c :: (a ++ x))).outcome = .ok t)
    (htaken : (string quote opened start (c :: (a ++ x))).taken = a.length + 1)
    (hxy : (string quote opened start (c :: (a ++ x))).shift = .stay → Closed quote x y) :
    string quote opened start (c :: (a ++ y)) = string quote opened start (c :: (a ++ x)) := by
  rw [string] at hok htaken hxy
  rw [string, string]
  by_cases hquote : c = quote
  · rw [if_pos hquote, if_pos hquote]
  rw [if_neg hquote] at hok htaken hxy ⊢
  rw [if_neg hquote]
  by_cases hvar : c = '%' ∧ nextIs (· == '\x7b') (a ++ x) = true
  · rw [if_pos hvar] at htaken ⊢
    have ha : a ≠ [] := by rintro rfl; cases htaken
    rw [nextIs_append ha _ x y, if_pos hvar]
  rw [if_neg hvar] at hok htaken hxy ⊢
  by_cases hgroup : c = '$' ∧ nextIs isDigit (a ++ x) = true
  · rw [if_pos hgroup] at htaken ⊢
    cases a with
    | nil => cases htaken
    | cons d a =>
      rw [nextIs_append (List.cons_ne_nil d a) _ x y, if_neg hvar,
        nextIs_append (List.cons_ne_nil d a) _ x y, if_pos hgroup]
      rfl
  rw [if_neg hgroup] at hok htaken hxy ⊢
  have hstay : Closed quote x y := by
    refine hxy ?_
    simp only
    split <;> rfl
  have hstop := stopsText_swap (stopsText_eq_false hquote hvar hgroup) hstay
  rw [stopsText] at hstop
  simp only [Bool.or_eq_false_iff, Bool.and_eq_false_iff] at hstop
  rw [if_neg, if_neg]
  · have hend : (stringText quote (c :: (a ++ x))).ending = .done := by
      simp only at hok
      split at hok
      · assumption
      · cases hok
      · cases hok
    simp only [hend] at htaken
    have := stringText_swap hstay (a := c :: a) hend htaken
    simp only [List.cons_append] at this
    simp only [this, hend]
  · rintro ⟨hc, hnext⟩
    simp [hc, hnext] at hstop
  · rintro ⟨hc, hnext⟩
    simp [hc, hnext] at hstop

/-- A token of one character where text stops is the closing quote. -/
theorem eq_quote_of_stopsText {quote : Char} {opened : Nat} {cs : List Char}
    (hstop : stopsText quote c cs = true)
    (htaken : (string quote opened start (c :: cs)).taken = 1) :
    c = quote := by
  by_contra hquote
  rw [string, if_neg hquote] at htaken
  split at htaken
  · cases htaken
  split at htaken
  · cases htaken
  rename_i hvar hgroup
  rw [stopsText_eq_false hquote hvar hgroup] at hstop
  cases hstop

/-! ## Tokens of references -/

/-- `y` goes on with a name only where `x` does, and closes the reference where `x` does. -/
structure Braced (x y : List Char) : Prop where
  word : nextIs isWordChar x = false → nextIs isWordChar y = false
  brace : nextIs (· == '\x7d') x = true → nextIs (· == '\x7d') y = true

/-- **A token of a reference does not depend on what comes behind it**, as long as the name ends and
the reference is closed where it was. -/
theorem reference_swap {opened : Nat}
    (hok : (reference opened start (c :: (a ++ x))).outcome = .ok t)
    (htaken : (reference opened start (c :: (a ++ x))).taken = a.length + 1)
    (hxy : (reference opened start (c :: (a ++ x))).shift = .stay → Braced x y) :
    reference opened start (c :: (a ++ y)) = reference opened start (c :: (a ++ x)) := by
  rw [reference] at hok htaken hxy
  rw [reference, reference]
  by_cases hbrace : c = '\x7d'
  · rw [if_pos hbrace, if_pos hbrace]
  rw [if_neg hbrace] at hok htaken hxy ⊢
  rw [if_neg hbrace]
  by_cases hcolon : c = ':'
  · rw [if_pos hcolon] at hok htaken hxy ⊢
    rw [if_pos hcolon]
    simp only at hok htaken hxy ⊢
    by_cases hlen : ((a ++ x).takeWhile (· != '\x7d')).length < (a ++ x).length
    · rw [if_pos hlen] at htaken hxy ⊢
      have hword : ((a ++ x).takeWhile (· != '\x7d')).length = a.length := by
        simp only at htaken
        omega
      obtain ⟨ha, hx⟩ := takeWhile_cut hword
      have hbrace : nextIs (· == '\x7d') x = true := by
        cases x with
        | nil =>
          rw [hword, List.append_nil] at hlen
          exact absurd hlen (Nat.lt_irrefl _)
        | cons d x => simpa [nextIs] using hx
      have hy := (hxy rfl).brace hbrace
      obtain ⟨d, z, rfl⟩ : ∃ d z, y = d :: z := by
        cases y with
        | nil => cases hy
        | cons d z => exact ⟨d, z, rfl⟩
      have hy' : nextIs (· != '\x7d') (d :: z) = false := by simpa [nextIs] using hy
      rw [takeWhile_append_eq ha hx, takeWhile_append_eq ha hy', if_pos (by simp)]
    · rw [if_neg hlen] at hok
      cases hok
  rw [if_neg hcolon] at hok htaken hxy ⊢
  rw [if_neg hcolon]
  by_cases hword : isWordChar c = true
  · rw [if_pos hword] at htaken hxy ⊢
    rw [if_pos hword]
    obtain ⟨hx, hy⟩ := takeWhile_swap (a := c :: a) htaken (hxy rfl).word
    rw [List.cons_append] at hx hy
    rw [hx, hy]
  · rw [if_neg hword] at hok
    cases hok

end Scan

end RequestCondition

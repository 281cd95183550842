import Mathlib.Data.List.TakeWhile
import RequestCondition.Proofs.Lexer.Reading

/-!
# Where literals end

Words, numbers, the text of strings and the bodies of regex literals end where the next character or
two say so.  Each lemma here is about a literal in front of a rest `x`: in front of another rest `y`
it is the same, as long as `y` does not go on with it where `x` does not.

The lemmas have one form, and their names end in `_swap`.  A literal that is read from `a ++ x` and
takes just `a` is read from `a ++ y` as well.  That it takes `a` is the important hypothesis: what
is known of the literal is then known of the characters in front, and the rest matters where it
starts and nowhere else.

* A **word** ends where no character of words comes next.
* A **number** may have a fraction, so it ends by two characters: a point belongs to it if a digit
  comes behind.  The hypothesis is about `numberText`, once for each side of the point.
* The **body** of a regex literal ends at its delimiter, and nothing behind it matters.
* **Text** of a string ends in front of whatever is special, and two special things have two
  characters, the opening of a reference and a group.  `Closed` is the list of what the new rest
  must not change.

A rest that starts with a blank goes on with none of them (`Soft`).  It is what a writer of tokens
puts between two that must not run together.
-/

set_option autoImplicit false

namespace RequestCondition

variable {p : Char → Bool} {a x y : List Char}

/-! ## Looking at the next character

`nextIs` looks at the first character of a rest, so it cannot tell two rests apart behind any text
that is not empty. -/

/-- What comes next is in the first part, if that is not empty. -/
theorem nextIs_append (ha : a ≠ []) (p : Char → Bool) (x y : List Char) :
    nextIs p (a ++ y) = nextIs p (a ++ x) := by
  cases a with
  | nil => exact absurd rfl ha
  | cons c a => rfl

theorem takeWhile_eq_nil_iff : x.takeWhile p = [] ↔ nextIs p x = false := by
  cases x with
  | nil => exact ⟨fun _ ↦ rfl, fun _ ↦ rfl⟩
  | cons c x =>
    rw [List.takeWhile_cons, nextIs]
    cases p c <;> simp

/-- A word that ends where `x` starts. -/
theorem takeWhile_cut (h : ((a ++ x).takeWhile p).length = a.length) :
    (∀ c ∈ a, p c = true) ∧ nextIs p x = false := by
  have ha : (a ++ x).takeWhile p = a :=
    (List.prefix_of_prefix_length_le (List.takeWhile_prefix p) (List.prefix_append a x)
      (Nat.le_of_eq h)).eq_of_length h
  have hall : ∀ c ∈ a, p c = true := fun c hc ↦ List.mem_takeWhile_imp (ha ▸ hc)
  rw [List.takeWhile_append_of_pos hall] at ha
  exact ⟨hall, takeWhile_eq_nil_iff.1 (by simpa using ha)⟩

/-- What is cut off as long as `p` holds is known from the two sides of the cut. -/
theorem takeWhile_append_eq (ha : ∀ c ∈ a, p c = true) (hx : nextIs p x = false) :
    (a ++ x).takeWhile p = a := by
  rw [List.takeWhile_append_of_pos ha, takeWhile_eq_nil_iff.2 hx, List.append_nil]

/-- A word stays what it is if the new rest does not go on with it. -/
theorem takeWhile_swap (h : ((a ++ x).takeWhile p).length = a.length)
    (hxy : nextIs p x = false → nextIs p y = false) :
    (a ++ x).takeWhile p = a ∧ (a ++ y).takeWhile p = a := by
  obtain ⟨ha, hx⟩ := takeWhile_cut h
  exact ⟨takeWhile_append_eq ha hx, takeWhile_append_eq ha (hxy hx)⟩

theorem length_takeWhile_pos {p : Char → Bool} {cs : List Char} (h : nextIs p cs = true) :
    0 < (cs.takeWhile p).length := by
  cases cs with
  | nil => cases h
  | cons d cs =>
    rw [List.takeWhile_cons, if_pos (show p d = true from h)]
    exact Nat.succ_pos _

/-! ## Kinds of characters

Blanks, digits and characters of words are told apart here once, so that later proofs need not go
through characters. -/

/-- Words do not start with digits. -/
theorem not_isWordStart_of_isDigit {c : Char} (h : isDigit c = true) : ¬ isWordStart c = true := by
  rw [isDigit_iff] at h
  rw [isWordStart_iff]
  omega

theorem isWordChar_of_isBlank {c : Char} (h : isBlank c = true) : isWordChar c = false := by
  simp only [isBlank, Bool.or_eq_true, Bool.and_eq_true, decide_eq_true_eq, beq_iff_eq] at h
  rw [Bool.eq_false_iff, Ne, isWordChar_iff]
  omega

theorem ne_of_isBlank {c d : Char} (h : isBlank c = true) (hd : isBlank d = false) : c ≠ d := by
  rintro rfl
  rw [h] at hd
  cases hd

/-- Whether a text is at its end or goes on with a blank. -/
def Soft (cs : List Char) : Prop := nextIs (fun c ↦ !isBlank c) cs = false

theorem Soft.cons_iff {c : Char} {cs : List Char} : Soft (c :: cs) ↔ isBlank c = true := by
  simp [Soft, nextIs]

/-- A soft rest starts with nothing that is no blank. -/
theorem Soft.nextIs (h : Soft x) (hp : ∀ c, isBlank c = true → p c = false) :
    nextIs p x = false := by
  cases x with
  | nil => rfl
  | cons c x => exact hp c (Soft.cons_iff.1 h)

theorem isDigit_of_isBlank {c : Char} (h : isBlank c = true) : isDigit c = false := by
  have := isWordChar_of_isBlank h
  rw [isWordChar, Bool.or_eq_false_iff] at this
  exact this.2

theorem nextIs_isWordChar_of_isWordStart {cs : List Char} (h : nextIs isWordStart cs = true) :
    nextIs isWordChar cs = true := by
  cases cs with
  | nil => cases h
  | cons d cs =>
    rw [nextIs] at h
    rw [nextIs, isWordChar, h, Bool.true_or]

theorem nextIs_isDigit_of_isWordChar (h : nextIs isWordChar x = false) :
    nextIs isDigit x = false := by
  cases x with
  | nil => rfl
  | cons c x =>
    rw [nextIs, isWordChar, Bool.or_eq_false_iff] at h
    exact h.2

/-! ## Numbers

The two sides of the point are one function, which knows whether the point has been read. -/

theorem nextIs_isDigit_of_numberText {point : Bool} (h : numberText point x = []) :
    nextIs isDigit x = false := by
  cases x with
  | nil => rfl
  | cons c x =>
    rw [nextIs, Bool.eq_false_iff]
    intro hc
    rw [numberText, if_pos hc] at h
    cases h

/-- A number stays what it is if the new rest does not go on with it. -/
theorem numberText_swap {point : Bool} (h : (numberText point (a ++ x)).length = a.length)
    (hxy : ∀ point, numberText point x = [] → numberText point y = []) :
    numberText point (a ++ x) = a ∧ numberText point (a ++ y) = a := by
  induction a generalizing point with
  | nil =>
    have hx := List.length_eq_zero_iff.1 h
    exact ⟨hx, hxy point hx⟩
  | cons c a ih =>
    rw [List.cons_append, numberText] at h
    rw [List.cons_append, List.cons_append, numberText, numberText]
    by_cases hc : isDigit c = true
    · rw [if_pos hc] at h ⊢
      rw [if_pos hc]
      obtain ⟨hx, hy⟩ := ih (Nat.succ.inj h)
      rw [hx, hy]
      exact ⟨rfl, rfl⟩
    rw [if_neg hc] at h ⊢
    rw [if_neg hc]
    by_cases hpoint : (c == '.' && !point && nextIs isDigit (a ++ x)) = true
    · rw [if_pos hpoint] at h ⊢
      obtain ⟨hx, hy⟩ := ih (Nat.succ.inj h)
      have ha : a ≠ [] := by
        rintro rfl
        rw [List.nil_append] at hx hpoint
        rw [nextIs_isDigit_of_numberText hx, Bool.and_false] at hpoint
        cases hpoint
      rw [nextIs_append ha isDigit x y, if_pos hpoint, hx, hy]
      exact ⟨rfl, rfl⟩
    · rw [if_neg hpoint] at h
      cases h

/-! ## Regex literals

The recursion of `regexBody` takes one character or a pair off the source, and the proof follows it.
A pair that is cut in the middle cannot occur: the literal would have to take more than `a`. -/

/-- A body stays what it is in front of any other rest. -/
theorem regexBody_swap {delimiter : Char} : ∀ {a pattern : List Char} {n : Nat},
    regexBody delimiter (a ++ x) = some (pattern, n) → n < a.length →
      regexBody delimiter (a ++ y) = some (pattern, n)
  | [], _, _, _, hn => absurd hn (Nat.not_lt_zero _)
  | c :: a, pattern, n, h, hn => by
    rw [List.cons_append, regexBody.eq_def] at h
    rw [List.cons_append, regexBody.eq_def]
    simp only at h ⊢
    by_cases hc : c = delimiter
    · rw [if_pos hc] at h ⊢
      exact h
    rw [if_neg hc] at h ⊢
    by_cases hslash : c = '\\'
    · rw [if_pos hslash] at h ⊢
      cases a with
      | nil =>
        cases x with
        | nil => cases h
        | cons e x =>
          obtain ⟨⟨pattern', n'⟩, h', heq⟩ := Option.map_eq_some_iff.1 h
          obtain ⟨-, rfl⟩ := Prod.mk.inj heq
          simp only [List.length_singleton] at hn
          omega
      | cons e a =>
        obtain ⟨⟨pattern', n'⟩, h', heq⟩ := Option.map_eq_some_iff.1 h
        obtain ⟨-, rfl⟩ := Prod.mk.inj heq
        simp only [List.length_cons] at hn
        exact Option.map_eq_some_iff.2 ⟨_, regexBody_swap h' (by omega), heq⟩
    · rw [if_neg hslash] at h ⊢
      obtain ⟨⟨pattern', n'⟩, h', heq⟩ := Option.map_eq_some_iff.1 h
      obtain ⟨-, rfl⟩ := Prod.mk.inj heq
      simp only [List.length_cons] at hn
      exact Option.map_eq_some_iff.2 ⟨_, regexBody_swap h' (by omega), heq⟩

/-- What is not a part of words is no flag. -/
theorem hasIgnoreCaseFlag_eq_false (h : nextIs isWordChar y = false) :
    hasIgnoreCaseFlag y = false := by
  rw [hasIgnoreCaseFlag.eq_def]
  split
  · cases h
  · rfl

/-! ## Text of strings

A run of text is followed by a special character, by the end of the source, or by an escape that is
none.  Only a run that comes to a proper end becomes a token, so this is the case that is kept. -/

/-- `y` goes on with text of a string only where `x` does, and makes nothing special of a character
before it that `x` does not. -/
structure Closed (quote : Char) (x y : List Char) : Prop where
  stops : stringText quote x = ⟨[], .done, 0⟩ → stringText quote y = ⟨[], .done, 0⟩
  brace : nextIs (· == '\x7b') x = false → nextIs (· == '\x7b') y = false
  digit : nextIs isDigit x = false → nextIs isDigit y = false

/-- A character that does not stop a run of text does not stop it in front of the new rest. -/
theorem stopsText_swap {quote c : Char} (h : stopsText quote c (a ++ x) = false)
    (hxy : Closed quote x y) : stopsText quote c (a ++ y) = false := by
  cases a with
  | nil =>
    rw [stopsText] at h ⊢
    simp only [Bool.or_eq_false_iff, Bool.and_eq_false_iff] at h ⊢
    exact ⟨⟨h.1.1, h.1.2.imp_right hxy.brace⟩, h.2.imp_right hxy.digit⟩
  | cons d a => exact h

theorem stringText_cons_eq_iff {quote c : Char} {cs : List Char} :
    stringText quote (c :: cs) = ⟨[], .done, 0⟩ ↔ stopsText quote c cs = true := by
  constructor
  · intro h
    by_contra hstop
    have := Scan.stringText_taken (Bool.eq_false_iff.2 hstop)
    rw [h] at this
    exact Nat.lt_irrefl _ this
  · intro h
    rw [stringText.eq_def]
    simp only [h, if_true]

/-- A run that takes nothing is empty, and has come to its end. -/
theorem stringText_of_taken_eq_zero {quote : Char} (h : (stringText quote x).taken = 0) :
    stringText quote x = ⟨[], .done, 0⟩ := by
  cases x with
  | nil => rfl
  | cons c x =>
    rw [stringText_cons_eq_iff]
    by_contra hstop
    exact absurd h (Nat.ne_of_gt (Scan.stringText_taken (Bool.eq_false_iff.2 hstop)))

/-- Text stays what it is if the new rest does not go on with it. -/
theorem stringText_swap {quote : Char} (hxy : Closed quote x y) : ∀ {a : List Char},
    (stringText quote (a ++ x)).ending = .done → (stringText quote (a ++ x)).taken = a.length →
      stringText quote (a ++ y) = stringText quote (a ++ x)
  | [], hend, htaken => by
    have hx : stringText quote x = ⟨[], .done, 0⟩ := stringText_of_taken_eq_zero htaken
    exact (hxy.stops hx).trans hx.symm
  | c :: a, hend, htaken => by
    rw [List.cons_append, stringText.eq_def] at hend htaken
    rw [List.cons_append, List.cons_append, stringText.eq_def, stringText.eq_def quote (c :: _)]
    simp only at hend htaken ⊢
    cases hstop : stopsText quote c (a ++ x) with
    | true =>
      rw [hstop, if_pos rfl] at htaken
      cases htaken
    | false =>
    rw [hstop, if_neg Bool.false_ne_true] at hend htaken
    rw [stopsText_swap hstop hxy, if_neg Bool.false_ne_true, if_neg Bool.false_ne_true]
    by_cases hslash : c = '\\'
    · rw [if_pos hslash] at hend htaken
      rw [if_pos hslash, if_pos hslash]
      cases a with
      | nil =>
        cases x with
        | nil => cases hend
        | cons e x =>
          simp only [List.nil_append] at hend htaken
          cases he : unescape? e with
          | none =>
            rw [he] at hend
            cases hend
          | some d =>
            rw [he] at htaken
            cases htaken
      | cons e a =>
        simp only [List.cons_append] at hend htaken ⊢
        cases he : unescape? e with
        | none => rfl
        | some d =>
          rw [he] at hend htaken
          simp only [stringText_swap hxy hend (Nat.succ.inj (Nat.succ.inj htaken))]
    · rw [if_neg hslash] at hend htaken
      rw [if_neg hslash, if_neg hslash, stringText_swap hxy hend (Nat.succ.inj htaken)]

end RequestCondition

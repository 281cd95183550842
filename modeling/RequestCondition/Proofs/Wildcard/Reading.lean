import Mathlib.Data.List.Basic
import RequestCondition.Wildcard

/-!
# Reading a pattern from the left

The reader of patterns counts the characters that a class is written with and skips them afterwards.
Here every part of it is given in terms of what is left of the pattern instead: a reader answers
with what it has read and the characters behind it, and `compile_bracket_of_some` goes on there.

Whether a class is closed does not depend on what its ranges are.  The reader of ranges never takes
a closing bracket for the end of a range unless a backslash stands before it, so the class ends at
the first closing bracket behind its first character that no backslash stands before: `closes`.

Each reader `takeX` has its equations, one for each form that the characters at the front can have,
and a lemma that says that less is left than there was.  With these the counting readers need not be
opened again: later proofs go by recursion on what is left, as `compile` does by its equations.
-/

set_option autoImplicit false

namespace RequestCondition

namespace Wildcard

variable {c d : Char} {cs rest : List Char} {first : Bool}

/-! ## Tokens

What the reader makes of the first character: a star and a question mark are tokens by themselves, a
backslash takes the character behind it literally, a bracket opens a class if that is closed, and
any other character is a literal. -/

/-- The characters that do not stand for themselves. -/
def openers : List Char := ['*', '?', '\\', '[']

/-- What has been read, and what is left behind it. -/
def withRest {α : Type} (cs : List Char) (r : Option (α × ℕ)) : Option (α × List Char) :=
  r.map fun (a, n) ↦ (a, cs.drop n)

/-- A class behind its opening bracket, and what is left of the pattern. -/
def takeClass (cs : List Char) : Option (Token × List Char) := withRest cs (readClass cs)

/-- Characters that are skipped might as well not be there. -/
theorem compileAfter_eq_drop (n : ℕ) (cs : List Char) :
    compileAfter n cs = compile (cs.drop n) := by
  induction cs generalizing n with
  | nil => simp [compile, compileAfter]
  | cons c cs ih =>
    cases n with
    | zero => rfl
    | succ n => exact ih n

theorem compile_star : compile ('*' :: cs) = .star :: compile cs := by
  rw [compile, compileAfter.eq_def]
  rfl

theorem compile_anyChar : compile ('?' :: cs) = .anyChar :: compile cs := by
  rw [compile, compileAfter.eq_def]
  rfl

theorem compile_backslash : compile ['\\'] = [.literal '\\'] := by
  rw [compile, compileAfter.eq_def]
  rfl

theorem compile_escape : compile ('\\' :: c :: cs) = .literal c :: compile cs := by
  rw [compile, compileAfter.eq_def]
  rfl

/-- Behind a class the reader goes on with what is left. -/
theorem compile_bracket_of_some {t : Token} (h : takeClass cs = some (t, rest)) :
    compile ('[' :: cs) = t :: compile rest := by
  obtain ⟨⟨u, n⟩, hread, heq⟩ := Option.map_eq_some_iff.1 h
  obtain ⟨rfl, rfl⟩ := Prod.mk.inj heq
  rw [compile, compileAfter.eq_def]
  simp [hread, compileAfter_eq_drop]

/-- A bracket that is never closed stands for itself. -/
theorem compile_bracket_of_none (h : takeClass cs = none) :
    compile ('[' :: cs) = .literal '[' :: compile cs := by
  rw [takeClass, withRest, Option.map_eq_none_iff] at h
  rw [compile, compileAfter.eq_def]
  simp [h, compile]

theorem compile_plain (h : c ∉ openers) : compile (c :: cs) = .literal c :: compile cs := by
  simp only [openers, List.mem_cons, List.not_mem_nil, or_false, not_or] at h
  rw [compile, compileAfter.eq_def]
  simp [h, compile]

/-- A run of characters that stand for themselves is a run of literals. -/
theorem compile_append (h : ∀ c ∈ cs, c ∉ openers) :
    compile (cs ++ rest) = cs.map .literal ++ compile rest := by
  induction cs with
  | nil => rfl
  | cons c cs ih =>
    rw [List.cons_append, compile_plain (h c List.mem_cons_self),
      ih fun d hd ↦ h d (List.mem_cons_of_mem _ hd)]
    rfl

/-! ## Classes

A class is a row of ranges, where a single character is a range from itself to itself.  A dash makes
a range unless it stands first or last in the class.  A closing bracket that stands first is a
member, so the reader of ranges has to know whether it is at the beginning. -/

/-- A character of a class, and what is left. -/
def takeChar (cs : List Char) : Option (Char × List Char) := withRest cs (classChar cs)

/-- A range of a class, and what is left. -/
def takeRange (cs : List Char) : Option ((Char × Char) × List Char) := withRest cs (classRange cs)

/-- The ranges of a class up to its closing bracket, and what is left behind that. -/
def takeRanges (first : Bool) (cs : List Char) : Option (List (Char × Char) × List Char) :=
  withRest cs (classBody 0 first cs)

theorem takeChar_escape : takeChar ('\\' :: c :: cs) = some (c, cs) := rfl

theorem takeChar_plain (h : c ≠ '\\') : takeChar (c :: cs) = some (c, cs) := by
  rw [takeChar, classChar]
  · rfl
  · simp [h]
  · simp [h]

theorem takeRange_of_none (h : takeChar cs = none) : takeRange cs = none := by
  rw [takeChar, withRest, Option.map_eq_none_iff] at h
  rw [takeRange, classRange, h]
  rfl

/-- A dash before anything but the closing bracket makes a range. -/
theorem takeRange_dash (h : takeChar cs = some (c, '-' :: d :: rest)) (hd : d ≠ ']') :
    takeRange cs = (takeChar (d :: rest)).map fun (hi, rest) ↦ ((c, hi), rest) := by
  obtain ⟨⟨lo, n⟩, hchar, hrest⟩ := Option.map_eq_some_iff.1 h
  obtain ⟨rfl, hdrop⟩ := Prod.mk.inj hrest
  have hbehind (m : ℕ) : cs.drop (n + 1 + m) = (d :: rest).drop m := by
    rw [Nat.add_assoc, ← List.drop_drop, hdrop, Nat.add_comm, List.drop_succ_cons]
  rw [takeRange, classRange, hchar, takeChar]
  simp only [Option.bind_eq_bind, Option.bind_some, hdrop, if_neg hd]
  cases classChar (d :: rest) with
  | none => rfl
  | some p => simp [withRest, hbehind]

/-- A character without a dash behind it, or with one at the end of the class, is a range by
itself. -/
theorem takeRange_single (h : takeChar cs = some (c, rest))
    (hdash : ∀ d ds, rest = '-' :: d :: ds → d = ']') : takeRange cs = some ((c, c), rest) := by
  obtain ⟨⟨lo, n⟩, hchar, hrest⟩ := Option.map_eq_some_iff.1 h
  obtain ⟨rfl, hdrop⟩ := Prod.mk.inj hrest
  rw [takeRange, classRange, hchar]
  simp only [Option.bind_eq_bind, Option.bind_some, hdrop]
  split
  · next d ds =>
    rw [if_pos (hdash d ds rfl)]
    simp [withRest, hdrop]
  · simp [withRest, hdrop]

theorem length_lt_of_takeChar (h : takeChar cs = some (c, rest)) : rest.length < cs.length := by
  cases cs with
  | nil => cases h
  | cons b cs =>
    by_cases hb : b = '\\'
    · subst hb
      cases cs with
      | nil => cases h
      | cons e cs =>
        rw [takeChar_escape] at h
        cases h
        exact Nat.lt_succ_of_lt (Nat.lt_succ_self _)
    · rw [takeChar_plain hb] at h
      cases h
      simp

/-- A range is a single character, with no dash behind it or a dash at the end of the class, or two
characters with a dash between them. -/
theorem takeRange_eq_some {r : Char × Char} (h : takeRange cs = some (r, rest)) :
    (takeChar cs = some (r.1, rest) ∧ r.2 = r.1 ∧ ∀ d ds, rest = '-' :: d :: ds → d = ']') ∨
      ∃ d ds, takeChar cs = some (r.1, '-' :: d :: ds) ∧ d ≠ ']' ∧
        takeChar (d :: ds) = some (r.2, rest) := by
  cases hchar : takeChar cs with
  | none => simp [takeRange_of_none hchar] at h
  | some p =>
    obtain ⟨lo, behind⟩ := p
    by_cases hdash : ∀ d ds, behind = '-' :: d :: ds → d = ']'
    · rw [takeRange_single hchar hdash] at h
      cases h
      exact .inl ⟨rfl, rfl, hdash⟩
    · push Not at hdash
      obtain ⟨d, ds, rfl, hd⟩ := hdash
      rw [takeRange_dash hchar hd] at h
      obtain ⟨⟨hi, rest'⟩, hhi, heq⟩ := Option.map_eq_some_iff.1 h
      cases heq
      exact .inr ⟨d, ds, rfl, hd, hhi⟩

theorem length_lt_of_takeRange {r : Char × Char} (h : takeRange cs = some (r, rest)) :
    rest.length < cs.length := by
  rcases takeRange_eq_some h with ⟨hlo, -⟩ | ⟨d, ds, hlo, -, hhi⟩
  · exact length_lt_of_takeChar hlo
  · calc rest.length < (d :: ds).length := length_lt_of_takeChar hhi
      _ < ('-' :: d :: ds).length := Nat.lt_succ_self _
      _ < cs.length := length_lt_of_takeChar hlo

theorem takeRanges_close : takeRanges false (']' :: cs) = some ([], cs) := by
  rw [takeRanges, classBody.eq_def]
  rfl

/-- The reader of ranges, too, skips as if the skipped characters were not there. -/
theorem classBody_eq_drop (n : ℕ) (first : Bool) (cs : List Char) :
    classBody n first cs = (classBody 0 first (cs.drop n)).map fun (rs, m) ↦ (rs, m + n) := by
  induction cs generalizing n with
  | nil => simp [classBody]
  | cons c cs ih =>
    cases n with
    | zero => simp
    | succ n =>
      rw [classBody.eq_def, List.drop_succ_cons]
      simp only [ih n, Option.map_map]
      rfl

theorem isClosing_eq_false (hopen : c = ']' → first = true) : (c == ']' && !first) = false := by
  cases first <;> simp_all

/-- Anywhere else the class goes on with a range. -/
theorem takeRanges_range (hopen : c = ']' → first = true) :
    takeRanges first (c :: cs) =
      (takeRange (c :: cs)).bind fun (r, rest) ↦
        (takeRanges false rest).map fun (rs, rest) ↦ (r :: rs, rest) := by
  have hclose : ¬(c == ']' && !first) = true := by
    rw [isClosing_eq_false hopen]
    exact Bool.false_ne_true
  rw [takeRanges, classBody.eq_def, takeRange]
  show withRest (c :: cs) (if (c == ']' && !first) = true then _ else _) = _
  rw [if_neg hclose]
  cases hr : classRange (c :: cs) with
  | none => rfl
  | some p =>
    obtain ⟨r, n⟩ := p
    have hrange : takeRange (c :: cs) = some (r, (c :: cs).drop n) := by
      rw [takeRange, hr]
      rfl
    have hlt := length_lt_of_takeRange hrange
    rw [List.length_drop] at hlt
    obtain ⟨k, rfl⟩ := Nat.exists_eq_succ_of_ne_zero (show n ≠ 0 by rintro rfl; simp at hlt)
    show withRest (c :: cs) ((classBody k false cs).map fun (rs, m) ↦ (r :: rs, m + 1)) =
      (takeRanges false (cs.drop k)).map fun (rs, rest) ↦ (r :: rs, rest)
    rw [classBody_eq_drop, takeRanges]
    cases classBody 0 false (cs.drop k) with
    | none => rfl
    | some p => simp [withRest, Nat.add_comm]

/-- Whether a class is closed: by the first bracket that is not escaped, unless it comes `first`. -/
def closes : Bool → List Char → Bool
  | _, [] => false
  | _, ['\\'] => false
  | _, '\\' :: _ :: cs => closes false cs
  | first, c :: cs => (c == ']' && !first) || closes false cs

theorem closes_escape : closes first ('\\' :: c :: cs) = closes false cs := rfl

theorem closes_plain (h : c ≠ '\\') :
    closes first (c :: cs) = (c == ']' && !first || closes false cs) := by
  rw [closes]
  · simp [h]
  · simp [h]

/-- A closing bracket that stands where a character is read is the end of the class. -/
theorem closes_takeChar (hopen : c = ']' → first = true) :
    closes first (c :: cs) = (takeChar (c :: cs)).any fun p ↦ closes false p.2 := by
  by_cases hc : c = '\\'
  · subst hc
    cases cs <;> rfl
  · rw [takeChar_plain hc, closes_plain hc, isClosing_eq_false hopen]
    rfl

/-- The end of the class is not inside a range. -/
theorem closes_takeRange (hopen : c = ']' → first = true) :
    closes first (c :: cs) = (takeRange (c :: cs)).any fun p ↦ closes false p.2 := by
  rw [closes_takeChar hopen]
  cases hchar : takeChar (c :: cs) with
  | none => rw [takeRange_of_none hchar]; rfl
  | some p =>
    obtain ⟨lo, behind⟩ := p
    by_cases hdash : ∀ d ds, behind = '-' :: d :: ds → d = ']'
    · rw [takeRange_single hchar hdash]
      rfl
    · push Not at hdash
      obtain ⟨d, ds, rfl, hd⟩ := hdash
      have hclose : closes false (d :: ds) = (takeChar (d :: ds)).any fun p ↦ closes false p.2 :=
        closes_takeChar fun h ↦ absurd h hd
      rw [takeRange_dash hchar hd, Option.any_some, closes_plain (by decide), hclose]
      cases takeChar (d :: ds) <;> rfl

/-- What the ranges of a class are has no part in where it is closed. -/
theorem isSome_takeRanges : ∀ (first : Bool) (cs : List Char),
    (takeRanges first cs).isSome = closes first cs
  | _, [] => rfl
  | first, c :: cs => by
    by_cases hopen : c = ']' → first = true
    · rw [takeRanges_range hopen, closes_takeRange hopen]
      cases hr : takeRange (c :: cs) with
      | none => rfl
      | some p =>
        obtain ⟨r, rest⟩ := p
        have hle : rest.length ≤ cs.length := Nat.le_of_lt_succ (length_lt_of_takeRange hr)
        rw [Option.bind_some, Option.isSome_map, isSome_takeRanges false rest]
        rfl
    · push Not at hopen
      obtain ⟨rfl, hfirst⟩ := hopen
      obtain rfl := eq_false_of_ne_true hfirst
      rw [takeRanges_close]
      rfl
termination_by _ cs => cs.length

/-- Either sign negates a class. -/
theorem takeClass_negated (h : c = '!' ∨ c = '^') :
    takeClass (c :: cs) = (takeRanges true cs).map (Prod.map (.charClass true) id) := by
  have hread : readClass (c :: cs) =
      (classBody 0 true cs).map fun (rs, n) ↦ (.charClass true rs, n + 1) := by
    rcases h with rfl | rfl <;> rfl
  rw [takeClass, hread, takeRanges]
  cases classBody 0 true cs <;> rfl

theorem takeClass_plain (h : ¬(c = '!' ∨ c = '^')) :
    takeClass (c :: cs) = (takeRanges true (c :: cs)).map (Prod.map (.charClass false) id) := by
  rw [not_or] at h
  have hread : readClass (c :: cs) =
      (classBody 0 true (c :: cs)).map fun (rs, n) ↦ (.charClass false rs, n) := by
    rw [readClass]
    · simp [h.1]
    · simp [h.2]
  rw [takeClass, hread, takeRanges]
  cases classBody 0 true (c :: cs) <;> rfl

theorem length_le_of_takeClass {t : Token} (h : takeClass cs = some (t, rest)) :
    rest.length ≤ cs.length := by
  obtain ⟨⟨_, n⟩, -, heq⟩ := Option.map_eq_some_iff.1 h
  obtain ⟨-, rfl⟩ := Prod.mk.inj heq
  simp

end Wildcard

end RequestCondition

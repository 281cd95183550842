import RequestCondition.Proofs.Text.Bytes
import RequestCondition.Unicode.CaseMap

/-!
# Lower case forms

The lower case form of a character is a single character, with one exception: the capital I with a
dot above has a form of two, a small i and a combining dot.  A form that is not the character itself
consists of characters from the small a on, so the signs of ASCII before it have no other form than
themselves and are in the form of no other character (`eq_of_mem_lowerForm`).

What is said about characters outside ASCII is read off the table, once for all of its runs.  A run
gives the forms of consecutive characters, or of every other one, by adding a constant, so it is
enough to look at its two ends: `Run.givesLetters` is the check, and `Run.exists_form_eq` what it
says about every character of the run.
-/

set_option autoImplicit false

namespace RequestCondition

variable {c d : Char}

namespace CaseMap

/-- The forms that a run gives are single characters from the small a on. -/
def Run.givesLetters (r : Run) : Bool :=
  match r.form with
  | [f] => 'a'.toNat ≤ f && (f + (r.last - r.first) < 0xd800 ||
      0xdfff < f && f + (r.last - r.first) < 0x110000)
  | _ => false

set_option maxRecDepth 20000 in
/-- All runs but one give letters. -/
theorem lowerRuns_givesLetters :
    lowerRuns.all (fun r ↦ r.first == 'İ'.toNat && r.last == 'İ'.toNat || r.givesLetters) =
      true := by
  unfold lowerRuns CharSet.words lowerText
  rw [String.toList_ofList]
  decide +kernel

set_option maxRecDepth 20000 in
theorem lowerRuns_dotted :
    (lowerRuns.findSome? (·.formOf? 'İ'.toNat) == some ['i'.toNat, '\u0307'.toNat]) = true := by
  unfold lowerRuns CharSet.words lowerText
  rw [String.toList_ofList]
  decide +kernel

/-- A run that gives letters gives one for every character in it. -/
theorem Run.exists_form_eq {r : Run} (h : r.givesLetters = true) {n : ℕ} {ns : List ℕ}
    (hn : r.formOf? n = some ns) : ∃ d : Char, ns.map Char.ofNat = [d] ∧ 'a' ≤ d := by
  rw [givesLetters] at h
  split at h
  · next f hf =>
    simp only [Bool.and_eq_true, Bool.or_eq_true, decide_eq_true_eq] at h
    obtain ⟨⟨hfirst, hlast, -⟩, hns⟩ := Option.ite_none_right_eq_some.1 hn
    have hvalid : (f + (n - r.first)).isValidChar := by
      rw [Nat.isValidChar]
      omega
    refine ⟨Char.ofNat (f + (n - r.first)), by rw [← Option.some.inj hns, hf]; rfl, ?_⟩
    show 'a'.toNat ≤ (Char.ofNat _).toNat
    rw [toNat_ofNat_of_isValidChar hvalid]
    exact Nat.le_add_right_of_le h.1
  · cases h

end CaseMap

/-- **Lower case is a matter of single characters**, all of them but one.  For ASCII all cases are
tried; beyond it the form is found in a run of the table, or the character is its own. -/
theorem exists_lowerForm_eq (h : c ≠ 'İ') : ∃ d, lowerForm c = [d] ∧ (d = c ∨ 'a' ≤ d) := by
  rw [lowerForm]
  split_ifs with hascii
  · obtain ⟨k, rfl⟩ := exists_fin_of_toNat_lt hascii
    refine ⟨_, rfl, ?_⟩
    revert k
    decide
  · rw [CaseMap.apply]
    cases hform : CaseMap.lowerRuns.findSome? (·.formOf? c.toNat) with
    | none => exact ⟨c, rfl, .inl rfl⟩
    | some ns =>
      obtain ⟨r, hr, hn⟩ := List.exists_of_findSome?_eq_some hform
      have hrun := List.all_eq_true.1 CaseMap.lowerRuns_givesLetters r hr
      rcases Bool.or_eq_true_iff.1 hrun with hdotted | hletters
      · -- the run of the exception has no other character
        obtain ⟨hfirst, hlast⟩ := Bool.and_eq_true_iff.1 hdotted
        obtain ⟨hrange, -⟩ := Option.ite_none_right_eq_some.1 hn
        rw [beq_iff_eq.1 hfirst, beq_iff_eq.1 hlast] at hrange
        exact absurd (Char.toNat_inj.1 (Nat.le_antisymm hrange.2.1 hrange.1)) h
      · obtain ⟨d, hd, hle⟩ := CaseMap.Run.exists_form_eq hletters hn
        exact ⟨d, hd, .inr hle⟩

/-- The first character of the lower case form. -/
def lowerChar (c : Char) : Char := (lowerForm c).headD c

theorem lowerForm_eq (h : c ≠ 'İ') : lowerForm c = [lowerChar c] := by
  obtain ⟨d, hd, -⟩ := exists_lowerForm_eq h
  rw [lowerChar, hd]
  rfl

theorem lowerForm_dotted : lowerForm 'İ' = ['i', '\u0307'] := by
  have hascii : ¬ 'İ'.toNat < 0x80 := by decide
  rw [lowerForm, if_neg hascii, CaseMap.apply, beq_iff_eq.1 CaseMap.lowerRuns_dotted]
  rfl

theorem lowerForm_ne_nil (c : Char) : lowerForm c ≠ [] := by
  by_cases h : c = 'İ'
  · simp [h, lowerForm_dotted]
  · obtain ⟨d, hd, -⟩ := exists_lowerForm_eq h
    simp [hd]

/-- A character before the small a is in no lower case form but its own. -/
theorem eq_of_mem_lowerForm (hd : d ∈ lowerForm c) (hlt : d < 'a') : d = c := by
  by_cases h : c = 'İ'
  · rw [h, lowerForm_dotted] at hd
    simp only [List.mem_cons, List.not_mem_nil, or_false] at hd
    rcases hd with rfl | rfl <;> exact absurd hlt (by decide)
  · obtain ⟨e, he, hle⟩ := exists_lowerForm_eq h
    rw [he, List.mem_singleton] at hd
    subst hd
    exact hle.resolve_right (Nat.not_le.2 hlt)

end RequestCondition

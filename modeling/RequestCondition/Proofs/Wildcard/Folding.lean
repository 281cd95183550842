import RequestCondition.Proofs.Unicode.LowerForm
import RequestCondition.Proofs.Wildcard.Matching
import RequestCondition.Proofs.Wildcard.Reading

/-!
# Matching without regard to case

Case is ignored by taking pattern and text in lower case first.  The signs that a pattern is read by
are not touched by that, and no other character turns into one, so the pattern in lower case has the
tokens of the pattern, each in lower case (`compile_fold`).

That is not enough for a text to match in lower case whenever it matches as it is.  A range of a
class is taken by its ends, and a character between two ends need not be between them in lower case;
and the one character whose lower case form has two characters cannot be taken by a token that takes
a single one.  `Token.Keeps` says of a token and a character that neither happens.

With that, a text that is cut into pieces in a way that all tokens keep their characters is cut in
lower case along the same pieces (`cuts_fold`).  For a pattern of one token and a text of one
character the condition is necessary too (`isMatch_token_iff`), and the two ways in which it can
fail are there: `not_isMatch_ignoring_case` has an example of each.

The reader is followed from the inside of a class outwards: characters, ranges, the ranges of a
class, classes, tokens.  Its readers are those of the previous file, which answer with what is left,
so each statement is that the reader finds in lower case what it finds otherwise, in lower case, and
leaves what it leaves, in lower case.
-/

set_option autoImplicit false

namespace RequestCondition

namespace Wildcard

variable {c d s : Char} {cs ds rest : List Char} {first : Bool} {t : Token} {ts : List Token}

/-! ## Signs

Lower case touches letters only, and none of the signs is one. -/

/-- The characters that mean something in a pattern, inside or outside a class. -/
def signs : List Char := ['*', '?', '[', ']', '\\', '-', '!', '^']

theorem lowerForm_sign (h : c ∈ signs) : lowerForm c = [c] := by
  have hform : signs.all (fun s ↦ lowerForm s == [s]) = true := by decide
  exact beq_iff_eq.1 (List.all_eq_true.1 hform c h)

/-- A sign is in no other lower case form. -/
theorem eq_of_sign_mem (hs : s ∈ signs) (h : s ∈ lowerForm c) : s = c := by
  have hlt : signs.all (· < 'a') = true := by decide
  exact eq_of_mem_lowerForm h (of_decide_eq_true (List.all_eq_true.1 hlt s hs))

/-- A lower case form begins with a sign only if it is the form of that sign, and it does not go on
with one. -/
theorem exists_lowerForm_cons (c : Char) :
    ∃ d ds, lowerForm c = d :: ds ∧ (∀ s ∈ signs, d = s ↔ c = s) ∧ ∀ e ∈ ds, e ∉ signs := by
  obtain ⟨d, ds, hc⟩ := List.exists_cons_of_ne_nil (lowerForm_ne_nil c)
  refine ⟨d, ds, hc, fun s hs ↦ ⟨?_, ?_⟩, fun e he hsign ↦ ?_⟩
  · rintro rfl
    exact (eq_of_sign_mem hs (by simp [hc])).symm
  · rintro rfl
    rw [lowerForm_sign hs] at hc
    exact (List.cons.inj hc).1.symm
  · have hec := eq_of_sign_mem hsign (c := c) (by simp [hc, he])
    rw [← hec, lowerForm_sign hsign] at hc
    rw [← (List.cons.inj hc).2] at he
    exact absurd he (by simp)

/-- No character becomes a sign. -/
theorem lowerChar_eq_sign_iff (hc : c ≠ 'İ') (hs : s ∈ signs) : lowerChar c = s ↔ c = s := by
  obtain ⟨d, ds, hform, hsign, -⟩ := exists_lowerForm_cons c
  rw [lowerForm_eq hc] at hform
  rw [(List.cons.inj hform).1]
  exact hsign s hs

theorem fold_nil : fold true [] = [] := rfl

theorem fold_cons : fold true (c :: cs) = lowerForm c ++ fold true cs := rfl

theorem fold_sign (h : c ∈ signs) : fold true (c :: cs) = c :: fold true cs := by
  rw [fold_cons, lowerForm_sign h]
  rfl

theorem fold_char (h : c ≠ 'İ') : fold true (c :: cs) = lowerChar c :: fold true cs := by
  rw [fold_cons, lowerForm_eq h]
  rfl

/-! ## Classes in lower case

Where a class ends is seen from its backslashes and brackets, so lower case does not move the end.
The ranges in it are made of characters, and here the exception matters: an end of a range that has
a form of two characters would be read as an end and another member. -/

/-- Characters that are no signs do not close a class. -/
theorem closes_append (h : ∀ d ∈ ds, d ∉ signs) : closes false (ds ++ cs) = closes false cs := by
  induction ds with
  | nil => rfl
  | cons d ds ih =>
    have hd : d ∉ signs := h d List.mem_cons_self
    have hbackslash : d ≠ '\\' := fun heq ↦ hd (heq ▸ by decide)
    have hbracket : d ≠ ']' := fun heq ↦ hd (heq ▸ by decide)
    rw [List.cons_append, closes_plain hbackslash, ih fun e he ↦ h e (List.mem_cons_of_mem _ he)]
    simp [hbracket]

/-- A class in lower case is closed where the class is. -/
theorem closes_fold : ∀ (first : Bool) (cs : List Char),
    closes first (fold true cs) = closes first cs
  | _, [] => rfl
  | first, c :: cs => by
    obtain ⟨d, ds, hc, hd, hds⟩ := exists_lowerForm_cons c
    by_cases hbackslash : c = '\\'
    · subst hbackslash
      rw [fold_sign (by decide)]
      cases cs with
      | nil => rfl
      | cons e cs =>
        obtain ⟨d, ds, he, -, hds⟩ := exists_lowerForm_cons e
        rw [fold_cons, he, List.cons_append, closes_escape, closes_append hds, closes_fold,
          closes_escape]
    · have hd' : d ≠ '\\' := (hd _ (by decide)).not.2 hbackslash
      have hbracket : (d == ']') = (c == ']') := by
        rw [Bool.eq_iff_iff, beq_iff_eq, beq_iff_eq]
        exact hd _ (by decide)
      rw [fold_cons, hc, List.cons_append, closes_plain hd', closes_append hds, closes_fold,
        closes_plain hbackslash, hbracket]
termination_by _ cs => cs.length

/-- A range in lower case is between the lower case forms of its ends. -/
def lowerRange (r : Char × Char) : Char × Char := (lowerChar r.1, lowerChar r.2)

/-- A character that is read, escaped or not, is read in lower case. -/
theorem takeChar_fold (h : takeChar cs = some (c, rest)) (hc : c ≠ 'İ') :
    takeChar (fold true cs) = some (lowerChar c, fold true rest) := by
  cases cs with
  | nil => cases h
  | cons b cs =>
    by_cases hb : b = '\\'
    · subst hb
      rw [fold_sign (by decide)]
      cases cs with
      | nil => cases h
      | cons e cs =>
        rw [takeChar_escape] at h
        cases h
        rw [fold_char hc, takeChar_escape]
    · rw [takeChar_plain hb] at h
      cases h
      rw [fold_char hc, takeChar_plain ((lowerChar_eq_sign_iff hc (by decide)).not.2 hb)]

/-- A sign in a text in lower case has been there before. -/
theorem eq_cons_of_fold_eq_cons (hs : s ∈ signs) (h : fold true cs = s :: ds) :
    ∃ cs', cs = s :: cs' ∧ ds = fold true cs' := by
  cases cs with
  | nil => cases h
  | cons c cs =>
    obtain ⟨d, es, hc, hd, -⟩ := exists_lowerForm_cons c
    have hds : d = s := by
      rw [fold_cons, hc] at h
      exact (List.cons.inj h).1
    obtain rfl := (hd s hs).1 hds
    rw [fold_sign hs] at h
    exact ⟨cs, rfl, (List.cons.inj h).2.symm⟩

/-- A range is read in lower case if both ends have forms of one character. -/
theorem takeRange_fold {r : Char × Char} (h : takeRange cs = some (r, rest))
    (hends : r.1 ≠ 'İ' ∧ r.2 ≠ 'İ') :
    takeRange (fold true cs) = some (lowerRange r, fold true rest) := by
  rcases takeRange_eq_some h with ⟨hlo, hr, hdash⟩ | ⟨d, ds, hlo, hd, hhi⟩
  · rw [lowerRange, hr]
    -- a dash that is there in lower case was there before, and so was what stands behind it
    refine takeRange_single (takeChar_fold hlo hends.1) fun d ds hd ↦ ?_
    obtain ⟨cs', rfl, hcs'⟩ := eq_cons_of_fold_eq_cons (by decide) hd
    cases cs' with
    | nil => cases hcs'
    | cons e es =>
      rw [hdash e es rfl, fold_sign (by decide)] at hcs'
      exact (List.cons.inj hcs').1
  · obtain ⟨d', ds', hform, hsign, -⟩ := exists_lowerForm_cons d
    have hlo' := takeChar_fold hlo hends.1
    have hhi' := takeChar_fold hhi hends.2
    rw [fold_sign (by decide), fold_cons, hform, List.cons_append] at hlo'
    rw [fold_cons, hform, List.cons_append] at hhi'
    rw [takeRange_dash hlo' ((hsign _ (by decide)).not.2 hd), hhi']
    rfl

/-- The ranges of a class are read in lower case, one by one. -/
theorem takeRanges_fold : ∀ (first : Bool) (cs : List Char) {rs : List (Char × Char)}
    {rest : List Char}, takeRanges first cs = some (rs, rest) →
    (∀ r ∈ rs, r.1 ≠ 'İ' ∧ r.2 ≠ 'İ') →
    takeRanges first (fold true cs) = some (rs.map lowerRange, fold true rest)
  | _, [], _, _, h, _ => by cases h
  | first, c :: cs, rs, rest, h, hends => by
    by_cases hopen : c = ']' → first = true
    · rw [takeRanges_range hopen] at h
      obtain ⟨⟨r, behind⟩, hr, h⟩ := Option.bind_eq_some_iff.1 h
      obtain ⟨⟨rs, rest'⟩, hrs, heq⟩ := Option.map_eq_some_iff.1 h
      cases heq
      obtain ⟨d, ds, hc, hd, -⟩ := exists_lowerForm_cons c
      have hopen' : d = ']' → first = true := fun hclose ↦ hopen ((hd _ (by decide)).1 hclose)
      have hle : behind.length ≤ cs.length := Nat.le_of_lt_succ (length_lt_of_takeRange hr)
      have hrange := takeRange_fold hr (hends r List.mem_cons_self)
      have hranges := takeRanges_fold false behind hrs fun r hr ↦
        hends r (List.mem_cons_of_mem _ hr)
      rw [fold_cons, hc, List.cons_append] at hrange ⊢
      rw [takeRanges_range hopen', hrange, Option.bind_some]
      show (takeRanges false (fold true behind)).map _ = _
      rw [hranges]
      rfl
    · push Not at hopen
      obtain ⟨rfl, hfirst⟩ := hopen
      obtain rfl := eq_false_of_ne_true hfirst
      rw [takeRanges_close] at h
      cases h
      rw [fold_sign (by decide), takeRanges_close]
      rfl
termination_by _ cs => cs.length

theorem takeRanges_fold_eq_none (h : takeRanges first cs = none) :
    takeRanges first (fold true cs) = none := by
  rw [← Option.not_isSome_iff_eq_none, isSome_takeRanges] at h ⊢
  rwa [closes_fold]

/-! ## Tokens in lower case -/

/-- The tokens that a token becomes in lower case: several if it is a character whose form has
several. -/
def Token.fold : Token → List Token
  | star => [star]
  | anyChar => [anyChar]
  | literal c => (lowerForm c).map literal
  | charClass negated ranges => [charClass negated (ranges.map lowerRange)]

/-- Both ends of every range have lower case forms of one character. -/
def Token.Undotted : Token → Prop
  | charClass _ ranges => ∀ r ∈ ranges, r.1 ≠ 'İ' ∧ r.2 ≠ 'İ'
  | _ => True

/-- A class is negated in lower case exactly if it is. -/
theorem exists_takeClass_fold (cs : List Char) :
    ∃ negated ds, takeClass cs = (takeRanges true ds).map (Prod.map (.charClass negated) id) ∧
      takeClass (fold true cs) =
        (takeRanges true (fold true ds)).map (Prod.map (.charClass negated) id) := by
  cases cs with
  | nil => exact ⟨false, [], rfl, rfl⟩
  | cons c cs =>
    by_cases hc : c = '!' ∨ c = '^'
    · have hsign : c ∈ signs := by rcases hc with rfl | rfl <;> decide
      refine ⟨true, cs, takeClass_negated hc, ?_⟩
      rw [fold_sign hsign, takeClass_negated hc]
    · obtain ⟨d, ds, hform, hd, -⟩ := exists_lowerForm_cons c
      have hd' : ¬(d = '!' ∨ d = '^') := by
        rwa [hd _ (by decide), hd _ (by decide)]
      refine ⟨false, c :: cs, takeClass_plain hc, ?_⟩
      rw [fold_cons, hform, List.cons_append, takeClass_plain hd']

/-- A class is read in lower case as one token. -/
theorem takeClass_fold (h : takeClass cs = some (t, rest)) (hends : t.Undotted) :
    ∃ u, takeClass (fold true cs) = some (u, fold true rest) ∧ t.fold = [u] := by
  obtain ⟨negated, ds, hclass, hfold⟩ := exists_takeClass_fold cs
  rw [hclass] at h
  obtain ⟨⟨rs, rest'⟩, hrs, heq⟩ := Option.map_eq_some_iff.1 h
  obtain ⟨rfl, rfl⟩ := Prod.mk.inj heq
  rw [hfold, takeRanges_fold true ds hrs hends]
  exact ⟨_, rfl, rfl⟩

theorem takeClass_fold_eq_none (h : takeClass cs = none) : takeClass (fold true cs) = none := by
  obtain ⟨negated, ds, hclass, hfold⟩ := exists_takeClass_fold cs
  rw [hclass, Option.map_eq_none_iff] at h
  rw [hfold, takeRanges_fold_eq_none h]
  rfl

theorem openers_subset_signs : openers ⊆ signs := by
  simp [openers, signs]

/-- What stands for itself does so in lower case. -/
theorem notMem_openers_of_mem (hc : c ∉ openers) (hd : d ∈ lowerForm c) : d ∉ openers := by
  intro h
  obtain rfl := eq_of_sign_mem (openers_subset_signs h) hd
  exact hc h

/-- **The pattern in lower case has the tokens of the pattern in lower case.**  The recursion is
that of the reader.  Each sign is found where it was, so what is behind it is read in the same
way. -/
theorem compile_fold : ∀ cs : List Char, (∀ t ∈ compile cs, t.Undotted) →
    compile (fold true cs) = (compile cs).flatMap Token.fold
  | [], _ => rfl
  | c :: cs, hends => by
    by_cases hc : c ∈ openers
    · rw [fold_sign (openers_subset_signs hc)]
      simp only [openers, List.mem_cons, List.not_mem_nil, or_false] at hc
      rcases hc with rfl | rfl | rfl | rfl
      · rw [compile_star] at hends ⊢
        rw [compile_star, compile_fold cs fun t ht ↦ hends t (List.mem_cons_of_mem _ ht)]
        rfl
      · rw [compile_anyChar] at hends ⊢
        rw [compile_anyChar, compile_fold cs fun t ht ↦ hends t (List.mem_cons_of_mem _ ht)]
        rfl
      · cases cs with
        | nil => rw [fold_nil, compile_backslash]; rfl
        | cons e cs =>
          obtain ⟨d, ds, he, -, hds⟩ := exists_lowerForm_cons e
          rw [compile_escape] at hends ⊢
          rw [fold_cons, he, List.cons_append, compile_escape,
            compile_append fun e he h ↦ hds e he (openers_subset_signs h),
            compile_fold cs fun t ht ↦ hends t (List.mem_cons_of_mem _ ht), List.flatMap_cons,
            Token.fold, he]
          rfl
      · cases hclass : takeClass cs with
        | none =>
          rw [compile_bracket_of_none hclass] at hends ⊢
          rw [compile_bracket_of_none (takeClass_fold_eq_none hclass),
            compile_fold cs fun t ht ↦ hends t (List.mem_cons_of_mem _ ht)]
          rfl
        | some p =>
          -- a class takes more than its bracket, so the induction is on the length
          obtain ⟨t, rest⟩ := p
          have hle := length_le_of_takeClass hclass
          rw [compile_bracket_of_some hclass] at hends ⊢
          obtain ⟨u, hu, htu⟩ := takeClass_fold hclass (hends t List.mem_cons_self)
          rw [compile_bracket_of_some hu, List.flatMap_cons, htu,
            compile_fold rest fun t ht ↦ hends t (List.mem_cons_of_mem _ ht)]
          rfl
    · rw [compile_plain hc] at hends ⊢
      rw [fold_cons, compile_append fun d hd ↦ notMem_openers_of_mem hc hd,
        compile_fold cs fun t ht ↦ hends t (List.mem_cons_of_mem _ ht)]
      rfl
termination_by cs => cs.length

/-! ## Matching in lower case

Literals take the same character twice, and in lower case the same form twice, so they always keep
what they take.  A star takes anything.  The other two kinds of tokens take one character, and then
it matters what becomes of it. -/

/-- A token that takes a character takes it in lower case: this fails of a question mark if the
form has two characters, and of a class also if the form is not a member in lower case. -/
def Token.Keeps (c : Char) : Token → Prop
  | anyChar => c ≠ 'İ'
  | charClass negated ranges =>
    (charClass negated ranges).accepts false c = true →
      c ≠ 'İ' ∧ (charClass negated (ranges.map lowerRange)).accepts false (lowerChar c) = true
  | _ => True

/-- What a token takes and keeps, its tokens in lower case take in lower case. -/
theorem takesEach_fold (h : t.accepts false c = true) (hkeeps : t.Keeps c) :
    TakesEach false t.fold (lowerForm c) := by
  cases t with
  | star => cases h
  | anyChar =>
    rw [lowerForm_eq hkeeps]
    exact .cons rfl .nil
  | literal l =>
    obtain rfl : l = c := beq_iff_eq.1 h
    rw [TakesEach, Token.fold, List.forall₂_map_left_iff, List.forall₂_same]
    exact fun d _ ↦ beq_self_eq_true d
  | charClass negated ranges =>
    obtain ⟨hc, hlower⟩ := hkeeps h
    rw [lowerForm_eq hc]
    exact .cons hlower .nil

theorem fold_append : fold true (cs ++ ds) = fold true cs ++ fold true ds := List.flatMap_append

/-- A piece that a token takes, where the token keeps its characters, is taken in lower case. -/
theorem Takes.cuts_fold {piece : List Char} (h : Takes false t piece)
    (hkeeps : ∀ c ∈ piece, t.Keeps c) (hrest : Cuts false ts cs) :
    Cuts false (t.fold ++ ts) (fold true piece ++ cs) := by
  cases h with
  | run => exact cuts_star_iff.2 ⟨_, _, rfl, nofun, hrest⟩
  | @single _ c hc =>
    have htakes := takesEach_fold hc (hkeeps c List.mem_cons_self)
    rw [fold_cons, fold_nil, List.append_nil]
    exact htakes.cuts hrest

/-- **A cut in lower case**, from one whose tokens keep what they take. -/
theorem cuts_fold {pieces : List (List Char)}
    (h : List.Forall₂ (fun t piece ↦ Takes false t piece ∧ ∀ c ∈ piece, t.Keeps c) ts pieces) :
    Cuts false (ts.flatMap Token.fold) (fold true pieces.flatten) := by
  induction h with
  | nil => exact cuts_nil_iff.2 rfl
  | cons hpiece _ ih =>
    rw [List.flatMap_cons, List.flatten_cons, fold_append]
    exact hpiece.1.cuts_fold hpiece.2 ih

/-- A token that takes single characters takes no form of two. -/
theorem cuts_lowerForm_iff (ht : t ≠ .star) :
    Cuts false [t] (lowerForm c) ↔ c ≠ 'İ' ∧ t.accepts false (lowerChar c) = true := by
  by_cases hc : c = 'İ'
  · subst hc
    rw [lowerForm_dotted, cuts_single_cons_iff ht, cuts_nil_iff]
    exact iff_of_false (fun h ↦ List.cons_ne_nil _ _ h.2) fun h ↦ h.1 rfl
  · rw [lowerForm_eq hc, cuts_single_cons_iff ht, cuts_nil_iff, and_iff_left rfl]
    exact (and_iff_right hc).symm

/-- A pattern of one token takes a character in lower case exactly if the token keeps it. -/
theorem isMatch_token_iff {pattern text : String} (hpattern : compile pattern.toList = [t])
    (htext : text.toList = [c]) (hends : t.Undotted) (h : t.accepts false c = true) :
    isMatch pattern text false false = true ∧
      (isMatch pattern text true false = true ↔ t.Keeps c) := by
  have hends' : ∀ t ∈ compile pattern.toList, t.Undotted := by
    rw [hpattern]
    simpa using hends
  have htakes : TakesEach false [t] [c] := .cons h .nil
  constructor
  · show matchTokens false (compile pattern.toList) text.toList = true
    rw [matchTokens_eq_true_iff, hpattern, htext]
    exact htakes.cuts (cuts_nil_iff.2 rfl)
  show matchTokens false (compile (fold true pattern.toList)) (fold true text.toList) = true ↔ _
  rw [matchTokens_eq_true_iff, compile_fold _ hends', hpattern, htext, fold_cons, fold_nil,
    List.append_nil, List.flatMap_singleton]
  constructor
  · intro hcut
    cases t with
    | star => trivial
    | anyChar =>
      have hne : Token.anyChar ≠ .star := by simp
      exact ((cuts_lowerForm_iff hne).1 hcut).1
    | literal l => trivial
    | charClass negated ranges =>
      have hne : Token.charClass negated (ranges.map lowerRange) ≠ .star := by simp
      exact fun _ ↦ (cuts_lowerForm_iff hne).1 hcut
  · intro hkeeps
    simpa using (takesEach_fold h hkeeps).cuts (cuts_nil_iff.2 rfl)

/-- **What matches as it is matches without regard to case**, if the tokens of the pattern keep what
they take of the text, and no range has an end whose form has two characters. -/
theorem isMatch_ignoring_case (pattern text : String) (pieces : List (List Char))
    (hends : ∀ t ∈ compile pattern.toList, t.Undotted) (htext : pieces.flatten = text.toList)
    (hpieces : List.Forall₂ (fun t piece ↦ Takes false t piece ∧ ∀ c ∈ piece, t.Keeps c)
      (compile pattern.toList) pieces) :
    isMatch pattern text false false = true ∧ isMatch pattern text true false = true := by
  constructor
  · show matchTokens false (compile pattern.toList) text.toList = true
    rw [matchTokens_eq_true_iff]
    exact ⟨pieces, htext, hpieces.imp fun _ _ h ↦ h.1⟩
  · show matchTokens false (compile (fold true pattern.toList)) (fold true text.toList) = true
    rw [matchTokens_eq_true_iff, compile_fold _ hends, ← htext]
    exact cuts_fold hpieces

theorem isMatch_ignoring_case_letters :
    isMatch "[A-Z]*" "Hello" false false = true ∧ isMatch "[A-Z]*" "Hello" true false = true := by
  have hpattern : compile "[A-Z]*".toList = [.charClass false [('A', 'Z')], .star] := by
    decide +kernel
  have hletter : ∀ c ∈ ['H'], Token.Keeps c (.charClass false [('A', 'Z')]) := by
    simp only [List.mem_singleton, forall_eq]
    exact fun _ ↦ by decide
  refine isMatch_ignoring_case _ _ [['H'], ['e', 'l', 'l', 'o']] ?_ (by decide) ?_ <;> rw [hpattern]
  · intro t ht
    simp only [List.mem_cons, List.not_mem_nil, or_false] at ht
    rcases ht with rfl | rfl
    · show ∀ r ∈ [('A', 'Z')], r.1 ≠ 'İ' ∧ r.2 ≠ 'İ'
      decide
    · trivial
  · exact .cons ⟨.single (by decide), hletter⟩ (.cons ⟨.run nofun, fun _ _ ↦ trivial⟩ .nil)

/-- Of the range from A to z the underscore is not kept, and a question mark does not keep the
capital I with a dot above. -/
theorem not_isMatch_ignoring_case :
    (compile "[A-z]".toList = [.charClass false [('A', 'z')]] ∧
      isMatch "[A-z]" "_" false false = true ∧ isMatch "[A-z]" "_" true false = false) ∧
    compile "?".toList = [.anyChar] ∧
      isMatch "?" "İ" false false = true ∧ isMatch "?" "İ" true false = false := by
  have hrange : compile "[A-z]".toList = [.charClass false [('A', 'z')]] := by decide +kernel
  have hany : compile "?".toList = [.anyChar] := by decide
  have hends : Token.Undotted (.charClass false [('A', 'z')]) := by
    show ∀ r ∈ [('A', 'z')], r.1 ≠ 'İ' ∧ r.2 ≠ 'İ'
    decide
  have hunderscore : ¬Token.Keeps '_' (.charClass false [('A', 'z')]) :=
    fun h ↦ absurd (h (by decide)).2 (by decide)
  have hdotted : ¬Token.Keeps 'İ' .anyChar := fun h ↦ h rfl
  have htext : "_".toList = ['_'] ∧ "İ".toList = ['İ'] := by decide
  have hclass := isMatch_token_iff hrange htext.1 hends (by decide)
  have hsingle := isMatch_token_iff hany htext.2 trivial (by decide)
  rw [← Bool.not_eq_true, ← Bool.not_eq_true, hclass.2, hsingle.2]
  exact ⟨⟨hrange, hclass.1, hunderscore⟩, hany, hsingle.1, hdotted⟩

end Wildcard

end RequestCondition

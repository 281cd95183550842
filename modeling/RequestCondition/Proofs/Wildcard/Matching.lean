import Mathlib.Data.List.Forall2
import Mathlib.Tactic.Ring
import RequestCondition.Wildcard

/-!
# What a wildcard pattern matches

A text matches the tokens of a pattern if it can be cut into pieces, one for each token: `Cuts`.
The search that decides it never comes back to a star before the last one, so it does not look at
all the ways to cut.  It is right nevertheless, and the reason is in `cuts_star_append_iff`.  Once
the tokens between two stars have been found somewhere, they need not be looked for further to the
right, because the second star can take what the first one would have to take more.

In a path name there is something to show about slashes.  Between the two places the tokens match
twice, and a slash is matched by itself alone, so both runs have their slashes in the same
positions; `forall_not_of_append_eq` concludes that there is none.

`Stands` is what is known at every place of a search, `Stands.step` what a step makes of it, and
`Stands.ends` the whole run: it comes to an end after a bounded number of steps, it never reads
outside the pattern or the text, and its answer is that the text can be cut.

The file goes from the relation to the search.

* The equations of `Cuts` follow the tokens: `cuts_nil_iff`, `cuts_star_cons_iff`,
  `cuts_single_cons_iff`.
* `Known` keeps the goal of the whole search in view while pattern and text are used up, by lists
  alone.  Each of its lemmas is what one kind of step makes of it.
* `Stands` says the same of the places of the search, which are indices, and adds their bounds.
* `Ends` counts the steps of a run.  The search returns what a run ends with (`Ends.search_eq`).

`isMatch_iff_pieces` puts this together for a pattern and a text.
-/

set_option autoImplicit false

namespace RequestCondition

namespace Wildcard

/-! ## Cutting a text

One equation for each form of a token.  A token that is no star takes one character and nothing
else, so it leaves no choice; a star takes nothing or a character and then more. -/

/-- The pieces that a token takes: a star any run of characters, without a slash in a path name, and
another token a single character that it accepts. -/
inductive Takes (pathname : Bool) : Token → List Char → Prop
  | run {cs : List Char} (h : pathname = true → '/' ∉ cs) : Takes pathname .star cs
  | single {t : Token} {c : Char} (h : t.accepts pathname c = true) : Takes pathname t [c]

/-- Whether a text can be cut into consecutive pieces, one for each token, that the tokens take. -/
def Cuts (pathname : Bool) (ts : List Token) (cs : List Char) : Prop :=
  ∃ pieces : List (List Char), pieces.flatten = cs ∧ List.Forall₂ (Takes pathname) ts pieces

/-- Whether tokens take the characters of a text one by one. -/
def TakesEach (pathname : Bool) : List Token → List Char → Prop :=
  List.Forall₂ fun t c ↦ t.accepts pathname c = true

variable {pathname : Bool} {t : Token} {ts us : List Token} {c : Char} {cs ds : List Char}

theorem cuts_nil_iff : Cuts pathname [] cs ↔ cs = [] := by
  constructor
  · rintro ⟨pieces, rfl, h⟩
    cases h
    rfl
  · rintro rfl
    exact ⟨[], rfl, .nil⟩

theorem cuts_cons_iff :
    Cuts pathname (t :: ts) cs ↔
      ∃ piece rest, cs = piece ++ rest ∧ Takes pathname t piece ∧ Cuts pathname ts rest := by
  constructor
  · rintro ⟨pieces, rfl, h⟩
    cases h with
    | @cons _ piece _ pieces ht hts => exact ⟨piece, pieces.flatten, by simp, ht, pieces, rfl, hts⟩
  · rintro ⟨piece, _, rfl, ht, pieces, rfl, hts⟩
    exact ⟨piece :: pieces, by simp, .cons ht hts⟩

theorem takes_star_iff : Takes pathname .star cs ↔ (pathname = true → '/' ∉ cs) := by
  constructor
  · intro h
    cases h with
    | run h => exact h
    | single h => simp [Token.accepts] at h
  · exact .run

theorem cuts_star_iff :
    Cuts pathname (.star :: ts) cs ↔
      ∃ piece rest, cs = piece ++ rest ∧ (pathname = true → '/' ∉ piece) ∧
        Cuts pathname ts rest := by
  simp only [cuts_cons_iff, takes_star_iff]

/-- A star may take nothing, or one character and then more. -/
theorem cuts_star_cons_iff :
    Cuts pathname (.star :: ts) (c :: cs) ↔
      Cuts pathname ts (c :: cs) ∨
        ¬(pathname = true ∧ c = '/') ∧ Cuts pathname (.star :: ts) cs := by
  simp only [cuts_star_iff]
  constructor
  · rintro ⟨piece, rest, heq, hp, hr⟩
    cases piece with
    | nil =>
      rw [List.nil_append] at heq
      exact .inl (heq ▸ hr)
    | cons d piece =>
      obtain ⟨rfl, rfl⟩ := List.cons.inj heq
      refine .inr ⟨fun h ↦ hp h.1 (by simp [h.2]), piece, rest, rfl, fun h ↦ ?_, hr⟩
      exact fun hmem ↦ hp h (List.mem_cons_of_mem _ hmem)
  · rintro (h | ⟨hc, piece, rest, rfl, hp, hr⟩)
    · exact ⟨[], c :: cs, rfl, by simp, h⟩
    · refine ⟨c :: piece, rest, rfl, fun h hmem ↦ ?_, hr⟩
      rcases List.mem_cons.1 hmem with rfl | hmem
      · exact hc ⟨h, rfl⟩
      · exact hp h hmem

/-- A token that is no star has no choice. -/
theorem cuts_single_cons_iff (ht : t ≠ .star) :
    Cuts pathname (t :: ts) (c :: cs) ↔ t.accepts pathname c = true ∧ Cuts pathname ts cs := by
  rw [cuts_cons_iff]
  constructor
  · rintro ⟨_, rest, heq, hp, hr⟩
    cases hp with
    | run => exact absurd rfl ht
    | single h =>
      obtain ⟨rfl, rfl⟩ := List.cons.inj heq
      exact ⟨h, hr⟩
  · rintro ⟨h, hr⟩
    exact ⟨[c], cs, rfl, .single h, hr⟩

theorem not_cuts_single_nil (ht : t ≠ .star) : ¬Cuts pathname (t :: ts) [] := by
  rw [cuts_cons_iff]
  rintro ⟨_, rest, heq, hp, -⟩
  cases hp with
  | run => exact ht rfl
  | single => simp at heq

/-- The empty text is matched by stars alone. -/
theorem cuts_nil_right_iff : Cuts pathname ts [] ↔ ∀ t ∈ ts, t = .star := by
  induction ts with
  | nil => simp [cuts_nil_iff]
  | cons t ts ih =>
    by_cases ht : t = .star
    · subst ht
      rw [cuts_star_iff]
      constructor
      · rintro ⟨piece, rest, heq, -, hr⟩
        obtain ⟨-, rfl⟩ := List.append_eq_nil_iff.1 heq.symm
        simpa using ih.1 hr
      · intro h
        exact ⟨[], [], rfl, by simp, ih.2 fun u hu ↦ h u (List.mem_cons_of_mem _ hu)⟩
    · refine iff_of_false (not_cuts_single_nil ht) fun h ↦ ht (h t (by simp))

/-! ## Tokens between two stars

Such tokens take as many characters as they are, wherever they stand.  That makes two ways to cut a
text comparable: if the tokens take the beginning of the text, and some later part of it as well,
then both parts are of one length, and the earlier one leaves more for the star behind them. -/

theorem ne_star_of_accepts (h : t.accepts pathname c = true) : t ≠ .star := by
  rintro rfl
  simp [Token.accepts] at h

/-- Tokens that take a character each take a text of their own length, whatever comes behind. -/
theorem cuts_append_iff (h : TakesEach pathname us ds) :
    Cuts pathname (us ++ ts) cs ↔
      ∃ es rest, cs = es ++ rest ∧ TakesEach pathname us es ∧ Cuts pathname ts rest := by
  induction h generalizing cs with
  | nil =>
    constructor
    · intro hc
      exact ⟨[], cs, rfl, .nil, hc⟩
    · rintro ⟨_, rest, rfl, ⟨⟩, hr⟩
      exact hr
  | @cons u d us ds hu hus ih =>
    have hne : u ≠ .star := ne_star_of_accepts hu
    rw [List.cons_append]
    constructor
    · intro hcut
      cases cs with
      | nil => exact absurd hcut (not_cuts_single_nil hne)
      | cons c cs =>
        obtain ⟨hc, hcs⟩ := (cuts_single_cons_iff hne).1 hcut
        obtain ⟨es, rest, rfl, hes, hr⟩ := ih.1 hcs
        exact ⟨c :: es, rest, rfl, .cons hc hes, hr⟩
    · rintro ⟨_, rest, rfl, hes, hr⟩
      cases hes with
      | @cons _ e _ es hc hes =>
        exact (cuts_single_cons_iff hne).2 ⟨hc, ih.2 ⟨es, rest, rfl, hes, hr⟩⟩

theorem TakesEach.cuts (h : TakesEach pathname us ds) (hc : Cuts pathname ts cs) :
    Cuts pathname (us ++ ts) (ds ++ cs) :=
  (cuts_append_iff h).2 ⟨ds, cs, rfl, h, hc⟩

/-- Where a run comes again behind `k`, and so on along itself, everything in it comes from `k`. -/
theorem forall_not_of_append_eq {k a c d : List Bool} (hk : k ≠ []) (hf : ∀ b ∈ k, b = false)
    (h : a ++ c = k ++ (a ++ d)) : ∀ b ∈ a, b = false := by
  obtain ⟨a', hka, hc⟩ | ⟨a', rfl, hc⟩ := List.append_eq_append_iff.1 h
  · subst hka
    exact fun b hb ↦ hf b (List.mem_append_left _ hb)
  · rw [List.append_assoc] at hc
    have hlt : a'.length < (k ++ a').length := by
      have := List.length_pos_of_ne_nil hk
      simp only [List.length_append]
      omega
    have ha' := forall_not_of_append_eq hk hf hc.symm
    intro b hb
    exact (List.mem_append.1 hb).elim (hf b) (ha' b)
termination_by a.length

/-- In a path name a slash has to be written as it is. -/
theorem accepts_slash_iff :
    t.accepts true '/' = true ↔ t = .literal '/' := by
  cases t <;> simp [Token.accepts]

/-- In a path name the slashes that tokens take are where the tokens say. -/
theorem TakesEach.slashes (h : TakesEach true us ds) :
    ds.map (· == '/') = us.map (· == .literal '/') := by
  induction h with
  | nil => rfl
  | @cons u d us ds hu _ ih =>
    have hd : (d == '/') = (u == .literal '/') := by
      rw [Bool.eq_iff_iff, beq_iff_eq, beq_iff_eq]
      constructor
      · rintro rfl
        exact accepts_slash_iff.1 hu
      · rintro rfl
        exact (beq_iff_eq.1 hu).symm
    rw [List.map_cons, List.map_cons, hd, ih]

/-- **The second star makes up for the first.**  If the tokens between two stars take the beginning
of a text, then nothing is lost by having the first star take nothing. -/
theorem cuts_star_append_iff (h : TakesEach pathname us ds) :
    Cuts pathname (.star :: (us ++ .star :: ts)) (ds ++ cs) ↔ Cuts pathname (.star :: ts) cs := by
  constructor
  · intro hcut
    obtain ⟨run, rest, heq, hrun, hrest⟩ := cuts_star_iff.1 hcut
    obtain ⟨es, rest, rfl, hes, hrest⟩ := (cuts_append_iff h).1 hrest
    obtain ⟨piece, rest, rfl, hpiece, hrest⟩ := cuts_star_iff.1 hrest
    have hlen : es.length = ds.length := hes.length_eq.symm.trans h.length_eq
    -- what the second star takes: what was taken before it, as far as that is new, and its own
    have hcs : cs = (run ++ es).drop ds.length ++ piece ++ rest := by
      have := congrArg (List.drop ds.length) heq
      rw [List.drop_left, ← List.append_assoc,
        List.drop_append_of_le_length (by simp; omega)] at this
      rw [this, List.append_assoc]
    refine cuts_star_iff.2 ⟨_, rest, hcs, fun hp hmem ↦ ?_, hrest⟩
    subst hp
    rcases List.mem_append.1 hmem with hmem | hmem
    · by_cases hnil : run = []
      · subst hnil
        rw [List.nil_append, ← hlen, List.drop_length] at hmem
        exact absurd hmem (by simp)
      · have hslash := congrArg (List.map (· == '/')) heq
        simp only [List.map_append, hes.slashes, ← h.slashes] at hslash
        have hno : ∀ b ∈ run.map (· == '/'), b = false := by
          intro b hb
          obtain ⟨c, hc, rfl⟩ := List.mem_map.1 hb
          exact beq_eq_false_iff_ne.2 fun hs ↦ hrun rfl (hs ▸ hc)
        have hds := forall_not_of_append_eq (by simpa using hnil) hno hslash
        rw [h.slashes, ← hes.slashes] at hds
        rcases List.mem_append.1 (List.mem_of_mem_drop hmem) with hr | he
        · exact hrun rfl hr
        · simpa using hds _ (List.mem_map_of_mem (f := (· == '/')) he)
    · exact hpiece rfl hmem
  · intro hcut
    exact cuts_star_iff.2 ⟨[], ds ++ cs, rfl, by simp, h.cuts hcut⟩

/-! ## What is known on the way

What a search knows about its `goal` is said in terms of what is left of the pattern and of the
text, and, once a star has been passed, of what was left of both behind that star. -/

/-- The goal is to match what is left; or, behind a star, to match the star and what was left behind
it, from which some tokens have taken some characters since. -/
inductive Known (pathname : Bool) (goal : Prop) (ts : List Token) (cs : List Char) :
    Option (List Token × List Char) → Prop
  | fresh (h : goal ↔ Cuts pathname ts cs) : Known pathname goal ts cs none
  | behind {us : List Token} {ds : List Char} (h : TakesEach pathname us ds)
      (hgoal : goal ↔ Cuts pathname (.star :: (us ++ ts)) (ds ++ cs)) :
      Known pathname goal ts cs (some (us ++ ts, ds ++ cs))

namespace Known

variable {goal : Prop} {star : Option (List Token × List Char)}

/-- Right behind a star no token has taken anything yet. -/
theorem atStar (h : goal ↔ Cuts pathname (.star :: ts) cs) :
    Known pathname goal ts cs (some (ts, cs)) := by
  have hnil : TakesEach pathname [] [] := .nil
  exact .behind hnil h

/-- At a further star the one before is forgotten, and nothing is lost by that. -/
theorem passStar (h : Known pathname goal (.star :: ts) cs star) :
    Known pathname goal ts cs (some (ts, cs)) := by
  have hgoal : goal ↔ Cuts pathname (.star :: ts) cs := by
    cases h with
    | fresh h => exact h
    | behind h hgoal => exact hgoal.trans (cuts_star_append_iff h)
  exact .atStar hgoal

/-- A token takes a character: what the search has passed behind the star grows by both. -/
theorem advance (h : Known pathname goal (t :: ts) (c :: cs) star)
    (hc : t.accepts pathname c = true) : Known pathname goal ts cs star := by
  cases h with
  | fresh h =>
    rw [cuts_single_cons_iff (ne_star_of_accepts hc)] at h
    exact .fresh (h.trans (and_iff_right hc))
  | @behind us ds h hgoal =>
    have hmore : TakesEach pathname (us ++ [t]) (ds ++ [c]) :=
      List.rel_append h (.cons hc .nil)
    have hgoal' : goal ↔ Cuts pathname (.star :: (us ++ [t] ++ ts)) (ds ++ [c] ++ cs) := by
      simpa using hgoal
    simpa using Known.behind hmore hgoal'

/-- Where what is left does not match, the goal is lost, unless the star can take a character. -/
theorem retry (h : Known pathname goal ts (c :: cs) star) (hno : ¬Cuts pathname ts (c :: cs)) :
    (star = none ∧ ¬goal) ∨
      ∃ vs d es, star = some (vs, d :: es) ∧
        (goal ↔ ¬(pathname = true ∧ d = '/') ∧ Cuts pathname (.star :: vs) es) := by
  cases h with
  | fresh h => exact .inl ⟨rfl, fun hg ↦ hno (h.1 hg)⟩
  | @behind us ds h hgoal =>
    refine .inr ?_
    obtain ⟨d, es, hds⟩ : ∃ d es, ds ++ c :: cs = d :: es := by
      cases ds with
      | nil => exact ⟨c, cs, rfl⟩
      | cons d ds => exact ⟨d, ds ++ c :: cs, rfl⟩
    have hrest : ¬Cuts pathname (us ++ ts) (d :: es) := by
      rw [← hds, cuts_append_iff h]
      rintro ⟨ds', rest, heq, hds', hrest⟩
      have hlen : ds.length = ds'.length := h.length_eq.symm.trans hds'.length_eq
      rw [← (List.append_inj heq hlen).2] at hrest
      exact hno hrest
    refine ⟨us ++ ts, d, es, by rw [hds], ?_⟩
    rw [hgoal, hds, cuts_star_cons_iff, or_iff_right hrest]

/-- At the end of the text the goal is met if only stars are left. -/
theorem ended (h : Known pathname goal ts [] star) : goal ↔ ∀ t ∈ ts, t = .star := by
  refine Iff.trans ?_ (cuts_nil_right_iff : Cuts pathname ts [] ↔ _)
  cases h with
  | fresh h => exact h
  | @behind us ds h hgoal =>
    rw [hgoal]
    constructor
    · intro hcut
      obtain ⟨run, rest, heq, -, hrest⟩ := cuts_star_iff.1 hcut
      obtain ⟨es, rest, rfl, hes, hrest⟩ := (cuts_append_iff h).1 hrest
      have hlen : es.length = ds.length := hes.length_eq.symm.trans h.length_eq
      have := congrArg List.length heq
      simp only [List.length_append, List.length_nil, hlen] at this
      rwa [List.eq_nil_of_length_eq_zero (by omega : rest.length = 0)] at hrest
    · intro hcut
      exact cuts_star_iff.2 ⟨[], ds ++ [], rfl, by simp, h.cuts hcut⟩

end Known

/-! ## The search

From here on the search is at indices into the pattern and the text.  What is left at a place is
what the lists are without their first characters, so that the lemmas about `Known` apply.  A step
looks up a token and a character; the bounds of the place are what makes both lookups succeed. -/

/-- What holds wherever a search stands. -/
structure Stands (pathname : Bool) (ts : List Token) (cs : List Char) (p : Place) : Prop where
  token_le : p.token ≤ ts.length
  char_le : p.char ≤ cs.length
  star_lt : ∀ s ∈ p.star, s.1 < p.token
  known : Known pathname (Cuts pathname ts cs) (ts.drop p.token) (cs.drop p.char)
    (p.star.map fun s ↦ (ts.drop (s.1 + 1), cs.drop s.2))

/-- A step that leads on to where the same holds, or ends with the right answer. -/
inductive Sound (pathname : Bool) (ts : List Token) (cs : List Char) : Option Step → Prop
  | goesOn {q : Place} (h : Stands pathname ts cs q) : Sound pathname ts cs (some (.goesOn q))
  | ends {found : Bool} (h : found = true ↔ Cuts pathname ts cs) :
      Sound pathname ts cs (some (.ends found))

namespace Stands

variable {p : Place}

theorem start (pathname : Bool) (ts : List Token) (cs : List Char) :
    Stands pathname ts cs .start :=
  ⟨Nat.zero_le _, Nat.zero_le _, nofun, .fresh Iff.rfl⟩

/-- Over a star the search goes on, and remembers where it has been. -/
theorem passStar (h : Stands pathname ts cs p) (ht : ts[p.token]? = some .star) :
    Stands pathname ts cs p.passStar := by
  obtain ⟨hlt, ht⟩ := List.getElem?_eq_some_iff.1 ht
  refine ⟨hlt, h.char_le, ?_, ?_⟩
  · intro s hs
    cases hs
    exact Nat.lt_succ_self _
  · have hk := h.known
    rw [List.drop_eq_getElem_cons hlt, ht] at hk
    exact hk.passStar

/-- The search goes on over a token and a character that it accepts. -/
theorem advance (h : Stands pathname ts cs p) (ht : ts[p.token]? = some t)
    (hc : cs[p.char]? = some c) (hacc : t.accepts pathname c = true) :
    Stands pathname ts cs p.advance := by
  obtain ⟨hlt, ht⟩ := List.getElem?_eq_some_iff.1 ht
  obtain ⟨hlc, hc⟩ := List.getElem?_eq_some_iff.1 hc
  refine ⟨hlt, hlc, fun s hs ↦ Nat.lt_succ_of_lt (h.star_lt s hs), ?_⟩
  have hk := h.known
  rw [List.drop_eq_getElem_cons hlt, List.drop_eq_getElem_cons hlc, ht, hc] at hk
  exact hk.advance hacc

/-- Where the rest does not match, the search goes back to the last star, or ends if there is none
or it may not take more. -/
theorem retry (h : Stands pathname ts cs p) (hc : p.char < cs.length)
    (hno : ¬Cuts pathname (ts.drop p.token) (cs.drop p.char)) :
    Sound pathname ts cs (p.retry pathname cs.toArray) := by
  have hk := h.known
  rw [List.drop_eq_getElem_cons hc] at hk hno
  rw [Place.retry]
  obtain ⟨hs, hgoal⟩ | ⟨vs, d, es, hs, hgoal⟩ := hk.retry hno
  · rw [Option.map_eq_none_iff] at hs
    rw [hs]
    exact .ends (iff_of_false Bool.false_ne_true hgoal)
  · obtain ⟨⟨s, i⟩, hstar, hvs⟩ := Option.map_eq_some_iff.1 hs
    obtain ⟨rfl, hds⟩ := Prod.mk.inj hvs
    have hi : i < cs.length := by
      by_contra hi
      rw [List.drop_eq_nil_of_le (by simpa using hi)] at hds
      exact List.cons_ne_nil _ _ hds.symm
    rw [List.drop_eq_getElem_cons hi] at hds
    obtain ⟨rfl, rfl⟩ := List.cons.inj hds
    rw [hstar]
    simp only [List.getElem?_toArray, List.getElem?_eq_getElem hi, Option.bind_eq_bind,
      Option.bind_some]
    split
    · next hslash =>
      refine .ends (iff_of_false Bool.false_ne_true fun hg ↦ ?_)
      exact (hgoal.1 hg).1 (by simpa using hslash)
    · next hslash =>
      have hgoal' : Cuts pathname ts cs ↔
          Cuts pathname (.star :: ts.drop (s + 1)) (cs.drop (i + 1)) :=
        hgoal.trans (and_iff_right (by simpa using hslash))
      refine .goesOn ⟨?_, hi, ?_, .atStar hgoal'⟩
      · exact (h.star_lt _ hstar).trans_le h.token_le
      · intro s' hs'
        cases hs'
        exact Nat.lt_succ_self _

/-- **Every step is sound**: it reads nothing that is not there, and it keeps what is known.  The
cases are those of the search: a star, a token that accepts the character, one that does not, no
token, and no character. -/
theorem step (h : Stands pathname ts cs p) :
    Sound pathname ts cs (step pathname ts.toArray cs.toArray p) := by
  rw [Wildcard.step]
  by_cases hc : p.char < cs.length
  · have hdrop := List.drop_eq_getElem_cons hc
    rw [if_pos (by simpa using hc), List.getElem?_toArray, List.getElem?_toArray,
      List.getElem?_eq_getElem hc]
    split
    · next ht => exact .goesOn (h.passStar ht)
    · next t hne ht =>
      rw [Option.bind_eq_bind, Option.bind_some]
      split
      · next hacc => exact .goesOn (h.advance ht (List.getElem?_eq_getElem hc) hacc)
      · next hacc =>
        refine h.retry hc ?_
        obtain ⟨hlt, ht⟩ := List.getElem?_eq_some_iff.1 ht
        rw [hdrop, List.drop_eq_getElem_cons hlt, ht, cuts_single_cons_iff hne]
        exact fun hcut ↦ hacc hcut.1
    · next ht =>
      refine h.retry hc ?_
      rw [hdrop, List.drop_eq_nil_of_le (List.getElem?_eq_none_iff.1 ht), cuts_nil_iff]
      exact List.cons_ne_nil _ _
  · rw [if_neg (by simpa using hc), if_pos (by simpa using h.token_le)]
    have hk := h.known
    rw [List.drop_eq_nil_of_le (Nat.le_of_not_lt hc)] at hk
    refine .ends ?_
    rw [hk.ended, List.all_eq_true]
    simp only [beq_iff_eq]

end Stands

/-- The run of a search from a place: the number of its steps, and the answer. -/
inductive Ends (pathname : Bool) (ts : Array Token) (cs : Array Char) : Place → Nat → Bool → Prop
  | now {p : Place} {found : Bool} (h : step pathname ts cs p = some (.ends found)) :
      Ends pathname ts cs p 1 found
  | later {p q : Place} {n : Nat} {found : Bool} (h : step pathname ts cs p = some (.goesOn q))
      (hq : Ends pathname ts cs q n found) : Ends pathname ts cs p (n + 1) found

/-- The search answers with what its run ends with. -/
theorem Ends.search_eq {ts : Array Token} {cs : Array Char} {p : Place} {n : Nat} {found : Bool}
    (h : Ends pathname ts cs p n found) : search pathname ts cs p = some found := by
  induction h with
  | now h =>
    rw [search]
    split <;> simp_all
  | later h _ ih =>
    rw [search]
    split <;> simp_all

/-- **A search ends**, within the bound for its steps, and with the right answer. -/
theorem Stands.ends {p : Place} (h : Stands pathname ts cs p) :
    ∃ n ≤ p.left ts.length cs.length + 1, ∃ found,
      Ends pathname ts.toArray cs.toArray p n found ∧ (found = true ↔ Cuts pathname ts cs) := by
  generalize hs : Wildcard.step pathname ts.toArray cs.toArray p = s
  have hsound := h.step
  rw [hs] at hsound
  cases hsound with
  | @ends found hfound => exact ⟨1, Nat.le_add_left _ _, found, .now hs, hfound⟩
  | @goesOn q hq =>
    have hlt : q.left ts.length cs.length < p.left ts.length cs.length := by
      simpa using left_lt_of_step hs
    obtain ⟨n, hn, found, hends, hfound⟩ := hq.ends
    exact ⟨n + 1, by omega, found, .later hs hends, hfound⟩
termination_by p.left ts.length cs.length

/-- The matcher decides whether a text can be cut. -/
theorem matchTokens_eq_true_iff : matchTokens pathname ts cs = true ↔ Cuts pathname ts cs := by
  obtain ⟨n, -, found, hends, hfound⟩ := (Stands.start pathname ts cs).ends
  rw [matchTokens, hends.search_eq, Option.getD_some, hfound]

/-- **A pattern matches the texts that can be cut along its tokens.**  The search for it ends after
a number of steps that is bounded by the lengths of both, and each of its steps reads tokens of the
pattern and characters of the text only.  In a path name no token but the slash itself takes a
slash. -/
theorem isMatch_iff_pieces (pattern text : String) (ignoreCase pathname : Bool) :
    let ts := compile (fold ignoreCase pattern.toList)
    let cs := fold ignoreCase text.toList
    (isMatch pattern text ignoreCase pathname = true ↔
      ∃ pieces : List (List Char),
        pieces.flatten = cs ∧ List.Forall₂ (Takes pathname) ts pieces) ∧
    (∃ n ≤ (cs.length + 2) * (ts.length + cs.length + 1),
      Ends pathname ts.toArray cs.toArray .start n
        (isMatch pattern text ignoreCase pathname)) ∧
    ∀ t : Token, t.accepts true '/' = true ↔ t = .literal '/' := by
  intro ts cs
  refine ⟨matchTokens_eq_true_iff, ?_, fun t ↦ accepts_slash_iff⟩
  obtain ⟨n, hn, found, hends, -⟩ := (Stands.start pathname ts cs).ends
  have hfound : isMatch pattern text ignoreCase pathname = found := by
    show matchTokens pathname ts cs = found
    rw [matchTokens, hends.search_eq, Option.getD_some]
  have hbound : Place.start.left ts.length cs.length + 1 =
      (cs.length + 2) * (ts.length + cs.length + 1) := by
    show (cs.length + 1) * (ts.length + cs.length + 1) + (cs.length + ts.length) + 1 = _
    ring
  exact ⟨n, hbound ▸ hn, hfound ▸ hends⟩

end Wildcard

end RequestCondition

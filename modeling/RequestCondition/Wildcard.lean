import RequestCondition.Unicode.CaseMap

/-!
# Wildcard patterns

A pattern of the shell: a star takes any run of characters, a question mark any single one, a class
in brackets any single one of its own; a backslash takes the special meaning from the character
behind it.  In a *path name* no star, question mark or class takes a slash.

`Wildcard.compile` cuts a pattern into tokens.  A bracket that is not closed is a character like any
other, so whether a class stands somewhere is known only after its end has been looked for; `skip`
then counts the characters that belong to a class already.

`Wildcard.search` goes along a text and its tokens with one place to come back to, the last star
that it has passed.  A star takes nothing at first; where the search cannot go on, that star takes
one character more, and the tokens behind it are tried again from there.  It never comes back to a
star before the last, and in a path name it gives up where the last star would have to take a slash.

The places are positions in the pattern and in the text.  `Wildcard.step` answers `none` where a
token or a character would be read that is not there.
-/

set_option autoImplicit false

namespace RequestCondition

namespace Wildcard

/-- One element of a pattern. -/
inductive Token where
  | star
  | anyChar
  | literal (c : Char)
  /-- Ranges of characters, or all others. -/
  | charClass (negated : Bool) (ranges : List (Char × Char))
deriving DecidableEq

/-- Whether a token that takes a single character takes this one. -/
def Token.accepts (pathname : Bool) (c : Char) : Token → Bool
  | star => false
  | anyChar => !(pathname && c == '/')
  | literal l => l == c
  | charClass negated ranges =>
    !(pathname && c == '/') && (ranges.any fun (lo, hi) ↦ lo ≤ c && c ≤ hi) != negated

/-! ## Reading patterns -/

/-- A character of a class and the characters it is written with: two behind a backslash. -/
def classChar : List Char → Option (Char × Nat)
  | [] => none
  | '\\' :: c :: _ => some (c, 2)
  | ['\\'] => none
  | c :: _ => some (c, 1)

/-- A range of a class, or a single character as a range, and the characters it is written with. A
dash before the closing bracket is no range. -/
def classRange (cs : List Char) : Option ((Char × Char) × Nat) := do
  let (lo, n) ← classChar cs
  match cs.drop n with
  | '-' :: c :: rest =>
    if c = ']' then pure ((lo, lo), n)
    else
      let (hi, m) ← classChar (c :: rest)
      pure ((lo, hi), n + 1 + m)
  | _ => pure ((lo, lo), n)

/-- The ranges of a class and the characters up to and with its closing bracket; `none` if it is
not closed.  A bracket that comes `first` is a member. -/
def classBody (skip : Nat) (first : Bool) : List Char → Option (List (Char × Char) × Nat)
  | [] => none
  | c :: cs =>
    match skip with
    | k + 1 => (classBody k first cs).map fun (rs, n) ↦ (rs, n + 1)
    | 0 =>
      if c = ']' && !first then some ([], 1)
      else
        match classRange (c :: cs) with
        | none => none
        | some (r, n) => (classBody (n - 1) false cs).map fun (rs, m) ↦ (r :: rs, m + 1)

/-- A class behind its opening bracket, and the characters it is written with. -/
def readClass (cs : List Char) : Option (Token × Nat) :=
  match cs with
  | '!' :: cs' => (classBody 0 true cs').map fun (rs, n) ↦ (.charClass true rs, n + 1)
  | '^' :: cs' => (classBody 0 true cs').map fun (rs, n) ↦ (.charClass true rs, n + 1)
  | cs' => (classBody 0 true cs').map fun (rs, n) ↦ (.charClass false rs, n)

/-- The tokens of a pattern whose first `skip` characters belong to the token before. -/
def compileAfter (skip : Nat) : List Char → List Token
  | [] => []
  | c :: cs =>
    match skip with
    | k + 1 => compileAfter k cs
    | 0 =>
      if c = '*' then .star :: compileAfter 0 cs
      else if c = '?' then .anyChar :: compileAfter 0 cs
      else if c = '\\' then
        match cs with
        | [] => [.literal '\\']
        | e :: cs' => .literal e :: compileAfter 0 cs'
      else if c = '[' then
        match readClass cs with
        | some (t, n) => t :: compileAfter n cs
        | none => .literal '[' :: compileAfter 0 cs
      else .literal c :: compileAfter 0 cs

/-- The tokens of a pattern. -/
def compile (pattern : List Char) : List Token := compileAfter 0 pattern

/-! ## Matching -/

/-- Where a search stands: at a token, at a character, and behind a star if there was one.  Of the
last star it knows the position, and from which character the tokens behind the star are tried. -/
structure Place where
  token : Nat
  char : Nat
  star : Option (Nat × Nat)
  star_le : ∀ s ∈ star, s.2 ≤ char

/-- What a step of a search comes to. -/
inductive Step where
  | goesOn (next : Place)
  | ends (found : Bool)

namespace Place

/-- The beginning of the pattern and of the text. -/
def start : Place := ⟨0, 0, none, nofun⟩

/-- Behind a star that takes nothing so far. -/
def passStar (p : Place) : Place :=
  ⟨p.token + 1, p.char, some (p.token, p.char), by simp⟩

/-- Behind a token that takes one character. -/
def advance (p : Place) : Place :=
  ⟨p.token + 1, p.char + 1, p.star, fun s h ↦ Nat.le_succ_of_le (p.star_le s h)⟩

/-- Back behind the last star, which takes one character more; without one, or where it may not take
the character, the text does not match. -/
def retry (pathname : Bool) (cs : Array Char) (p : Place) : Option Step :=
  match p.star with
  | none => some (.ends false)
  | some (s, i) => do
    let c ← cs[i]?
    if pathname && c == '/' then pure (.ends false)
    else pure (.goesOn ⟨s + 1, i + 1, some (s, i + 1), by simp⟩)

/-- How far the tokens behind a star have been moved along the text. -/
def tried (p : Place) : Nat := (p.star.map (·.2 + 1)).getD 0

/-- A bound for the number of steps to the end, for the numbers of tokens and characters.  Between
two moves of the tokens behind a star there is a step at most for each token and each character. -/
def left (tokens chars : Nat) (p : Place) : Nat :=
  (chars + 1 - p.tried) * (tokens + chars + 1) + ((chars - p.char) + (tokens - p.token))

theorem left_passStar_lt {tokens chars : Nat} {p : Place} (ht : p.token < tokens)
    (hc : p.char < chars) : p.passStar.left tokens chars < p.left tokens chars := by
  have htried : p.tried ≤ p.char + 1 := by
    rw [tried]
    cases h : p.star with
    | none => exact Nat.zero_le _
    | some s => exact Nat.succ_le_succ (p.star_le s (by simp [h]))
  have hle : (chars + 1 - p.passStar.tried) * (tokens + chars + 1) ≤
      (chars + 1 - p.tried) * (tokens + chars + 1) := by
    refine Nat.mul_le_mul_right _ ?_
    show chars + 1 - (p.char + 1) ≤ _
    omega
  show _ + ((chars - p.char) + (tokens - (p.token + 1))) < _
  rw [left]
  omega

theorem left_advance_lt {tokens chars : Nat} {p : Place} (hc : p.char < chars) :
    p.advance.left tokens chars < p.left tokens chars := by
  show _ + ((chars - (p.char + 1)) + (tokens - (p.token + 1))) < _
  rw [left, show p.advance.tried = p.tried from rfl]
  omega

theorem left_retry_lt {pathname : Bool} {cs : Array Char} {tokens : Nat} {p q : Place}
    (h : p.retry pathname cs = some (.goesOn q)) :
    q.left tokens cs.size < p.left tokens cs.size := by
  rw [retry] at h
  cases hs : p.star with
  | none => simp [hs] at h
  | some s =>
    obtain ⟨s, i⟩ := s
    cases hc : cs[i]? with
    | none => simp [hs, hc] at h
    | some c =>
      have hi : i < cs.size := (Array.getElem?_eq_some_iff.1 hc).1
      simp only [hs, hc, Option.bind_eq_bind, Option.bind_some] at h
      split at h
      · simp at h
      · cases h
        have htried : p.tried = i + 1 := by rw [tried, hs]; rfl
        have hmul : (cs.size + 1 - (i + 2)) * (tokens + cs.size + 1) + (tokens + cs.size + 1) ≤
            (cs.size + 1 - p.tried) * (tokens + cs.size + 1) := by
          rw [← Nat.succ_mul]
          exact Nat.mul_le_mul_right _ (by omega)
        show (cs.size + 1 - (i + 2)) * _ + ((cs.size - (i + 1)) + (tokens - (s + 1))) < _
        rw [left]
        omega

end Place

/-- One step of a search. -/
def step (pathname : Bool) (ts : Array Token) (cs : Array Char) (p : Place) : Option Step :=
  if p.char < cs.size then
    match ts[p.token]? with
    | some .star => some (.goesOn p.passStar)
    | some t => do
      let c ← cs[p.char]?
      if t.accepts pathname c then pure (.goesOn p.advance) else p.retry pathname cs
    | none => p.retry pathname cs
  else if p.token ≤ ts.size then
    some (.ends ((ts.toList.drop p.token).all (· == .star)))
  else none

theorem left_lt_of_step {pathname : Bool} {ts : Array Token} {cs : Array Char} {p q : Place}
    (h : step pathname ts cs p = some (.goesOn q)) :
    q.left ts.size cs.size < p.left ts.size cs.size := by
  rw [step] at h
  split at h
  · next hc =>
    split at h
    · next ht =>
      cases h
      exact Place.left_passStar_lt (Array.getElem?_eq_some_iff.1 ht).1 hc
    · next t _ _ =>
      rw [Array.getElem?_eq_getElem hc, Option.bind_eq_bind, Option.bind_some] at h
      split at h
      · cases h
        exact Place.left_advance_lt hc
      · exact Place.left_retry_lt h
    · exact Place.left_retry_lt h
  · split at h
    · simp at h
    · simp at h

/-- Whether the text from a place on matches the tokens from there on. -/
def search (pathname : Bool) (ts : Array Token) (cs : Array Char) (p : Place) : Option Bool :=
  match _h : step pathname ts cs p with
  | none => none
  | some (.ends found) => some found
  | some (.goesOn q) => search pathname ts cs q
termination_by p.left ts.size cs.size
decreasing_by exact left_lt_of_step ‹_›

/-- Whether a text matches tokens. -/
def matchTokens (pathname : Bool) (ts : List Token) (text : List Char) : Bool :=
  (search pathname ts.toArray text.toArray .start).getD false

/-- A text in lower case, character by character, where case is of no consequence. -/
def fold (ignoreCase : Bool) (cs : List Char) : List Char :=
  if ignoreCase then cs.flatMap lowerForm else cs

/-- Whether a text matches a pattern. -/
def isMatch (pattern text : String) (ignoreCase pathname : Bool) : Bool :=
  matchTokens pathname (compile (fold ignoreCase pattern.toList)) (fold ignoreCase text.toList)

end Wildcard

end RequestCondition

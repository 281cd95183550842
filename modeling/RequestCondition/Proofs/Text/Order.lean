import Mathlib.Algebra.Order.Ring.Nat
import Mathlib.Tactic.SplitIfs
import RequestCondition.Evaluator.Basic
import RequestCondition.Proofs.Text.Bytes

/-!
# The order of texts

Texts are compared by the bytes of their UTF-8 forms.  UTF-8 was made so that this is the order of
the code points.  Of two different characters the one with the smaller code point has the smaller
byte at the first place where their forms differ, and neither form ends before that place
(`precedes_utf8EncodeChar`): a longer form begins with a larger byte, and forms of one length are
the digits of the code points to the base 64, the highest first.  So whatever stands behind two
different characters has no say in how they compare, and the order carries over to runs of
characters (`compareBytes_eq_compare`).

An operator that compares texts asks for this order of the texts of its two values, whatever types
they have.  `holds_of_texts` says what the six operators have to do with each other.

Two forms that differ do so before either ends.  That is more than that one of them is the smaller
list: a proper beginning of a list is smaller as well, but what stands behind it would then be
compared with the rest of the other list.  `Precedes` leaves that case out, and so it survives
whatever is appended (`Precedes.append`).
-/

set_option autoImplicit false

namespace RequestCondition

/-! ## Runs of bytes that differ

The order of lists is known as soon as they differ. -/

/-- Two runs of bytes differ at some place, and at the first such place the first one has the
smaller byte. -/
inductive Precedes : List UInt8 → List UInt8 → Prop
  | head {a b : UInt8} {as bs : List UInt8} (h : a < b) : Precedes (a :: as) (b :: bs)
  | tail (a : UInt8) {as bs : List UInt8} (h : Precedes as bs) : Precedes (a :: as) (a :: bs)

namespace Precedes

variable {as bs : List UInt8}

/-- What stands behind has no say. -/
theorem append (h : Precedes as bs) (xs ys : List UInt8) : Precedes (as ++ xs) (bs ++ ys) := by
  induction h with
  | head h => exact .head h
  | tail a _ ih => exact .tail a ih

/-- What both begin with has no say either. -/
theorem append_left (xs : List UInt8) (h : Precedes as bs) : Precedes (xs ++ as) (xs ++ bs) := by
  induction xs with
  | nil => exact h
  | cons x xs ih => exact .tail x ih

/-- Runs that differ compare as their first difference does. -/
theorem compare_eq_lt (h : Precedes as bs) : compare as bs = .lt := by
  induction h with
  | head h =>
    rw [List.compare_cons_cons, Std.compare_eq_lt.2 h]
    rfl
  | tail a _ ih =>
    rw [List.compare_cons_cons, Std.compare_self]
    exact ih

end Precedes

/-! ## Characters

The four forms of UTF-8 are one: `spread` puts a number into one byte more than it is asked for, and
what marks the first byte is larger the longer the form is. -/

/-- A number in `k + 1` bytes: the highest digit to the base 64 in the first byte, above what marks
the byte as the first one, and the others in bytes of their own. -/
def spread (lead : Nat) : Nat → Nat → List UInt8
  | 0, v => [UInt8.ofNat (lead + v)]
  | k + 1, v => spread lead k (v / 64) ++ [UInt8.ofNat (v % 64 + 128)]

variable {lead lead' k k' m n : Nat}

theorem toNat_lt_of_char (c : Char) : c.toNat < 0x110000 := by
  have h : c.toNat < 0xd800 ∨ 0xdfff < c.toNat ∧ c.toNat < 0x110000 := c.valid
  omega

/-- The form of a character is its code point, spread over one to four bytes. -/
theorem utf8EncodeChar_eq_spread (c : Char) : String.utf8EncodeChar c =
    if c.toNat ≤ 0x7f then spread 0 0 c.toNat
    else if c.toNat ≤ 0x7ff then spread 0xc0 1 c.toNat
    else if c.toNat ≤ 0xffff then spread 0xe0 2 c.toNat
    else spread 0xf0 3 c.toNat := by
  have hmax := toNat_lt_of_char c
  have hval : c.val.toNat = c.toNat := rfl
  rw [String.utf8EncodeChar, hval]
  split_ifs with h1 h2 h3
  · simp only [spread, Nat.zero_add]
  · have hfirst : c.toNat / 64 % 32 + 192 = 0xc0 + c.toNat / 64 := by omega
    simp only [spread, hfirst, List.cons_append, List.nil_append]
  · have hfirst : c.toNat / 4096 % 16 + 224 = 0xe0 + c.toNat / 64 / 64 := by omega
    simp only [spread, hfirst, List.cons_append, List.nil_append]
  · have hfirst : c.toNat / 262144 % 8 + 240 = 0xf0 + c.toNat / 64 / 64 / 64 := by omega
    have hsecond : c.toNat / 4096 % 64 = c.toNat / 64 / 64 % 64 := by omega
    simp only [spread, hfirst, hsecond, List.cons_append, List.nil_append]

/-- The first byte has the highest digit. -/
theorem exists_spread_eq_cons (lead k v : Nat) :
    ∃ bs, spread lead k v = UInt8.ofNat (lead + v / 64 ^ k) :: bs := by
  induction k generalizing v with
  | zero => exact ⟨[], by rw [spread, Nat.pow_zero, Nat.div_one]⟩
  | succ k ih =>
    obtain ⟨bs, hbs⟩ := ih (v / 64)
    refine ⟨bs ++ [UInt8.ofNat (v % 64 + 128)], ?_⟩
    rw [spread, hbs, Nat.div_div_eq_div_mul, Nat.pow_succ', List.cons_append]

theorem ofNat_lt_ofNat (h : m < n) (hn : n < 256) : UInt8.ofNat m < UInt8.ofNat n := by
  rw [UInt8.lt_iff_toNat_lt, UInt8.toNat_ofNat', UInt8.toNat_ofNat']
  omega

/-- The first bytes can decide. -/
theorem precedes_of_first_lt (h : lead + m / 64 ^ k < lead' + n / 64 ^ k')
    (hn : lead' + n / 64 ^ k' < 256) : Precedes (spread lead k m) (spread lead' k' n) := by
  obtain ⟨as, has⟩ := exists_spread_eq_cons lead k m
  obtain ⟨bs, hbs⟩ := exists_spread_eq_cons lead' k' n
  rw [has, hbs]
  exact .head (ofNat_lt_ofNat h hn)

/-- In as many bytes, the smaller number comes first. -/
theorem precedes_of_lt (h : m < n) (hn : lead + n / 64 ^ k < 256) :
    Precedes (spread lead k m) (spread lead k n) := by
  induction k generalizing m n with
  | zero =>
    rw [Nat.pow_zero, Nat.div_one] at hn
    exact .head (ofNat_lt_ofNat (by omega) hn)
  | succ k ih =>
    rw [spread, spread]
    rcases Nat.lt_or_eq_of_le (Nat.div_le_div_right (c := 64) (Nat.le_of_lt h)) with hdiv | hdiv
    · rw [Nat.pow_succ', ← Nat.div_div_eq_div_mul] at hn
      exact (ih hdiv hn).append _ _
    · rw [hdiv]
      exact .append_left _ (.head (ofNat_lt_ofNat (by omega) (by omega)))

/-- A smaller code point has a smaller form, and the rest of a text has no say in that. -/
theorem precedes_utf8EncodeChar {c d : Char} (h : c.toNat < d.toNat) :
    Precedes (String.utf8EncodeChar c) (String.utf8EncodeChar d) := by
  have hmax := toNat_lt_of_char d
  rw [utf8EncodeChar_eq_spread, utf8EncodeChar_eq_spread]
  -- forms of one length, then forms of two lengths, where the second is the longer one by `h`
  split_ifs
  all_goals first
    | exact precedes_of_lt h (by omega)
    | exact precedes_of_first_lt (by omega) (by omega)

/-! ## Texts

Two texts begin with characters that they share.  Behind those one of them ends, or two different
characters stand there, and they decide. -/

/-- The code points of a text, in order. -/
def codePoints (s : String) : List Nat := s.toList.map Char.toNat

theorem compare_append_left (xs as bs : List UInt8) :
    compare (xs ++ as) (xs ++ bs) = compare as bs := by
  induction xs with
  | nil => rfl
  | cons x xs ih =>
    rw [List.cons_append, List.cons_append, List.compare_cons_cons, Std.compare_self]
    exact ih

/-- By induction on both texts, as long as their characters are the same. -/
theorem compare_utf8Bytes (cs ds : List Char) :
    compare (utf8Bytes cs) (utf8Bytes ds) = compare (cs.map Char.toNat) (ds.map Char.toNat) := by
  induction cs generalizing ds with
  | nil =>
    cases ds with
    | nil => rfl
    | cons d ds =>
      obtain ⟨b, bs, hd⟩ := List.exists_cons_of_ne_nil (String.utf8EncodeChar_ne_nil (c := d))
      rw [utf8Bytes_cons, hd]
      rfl
  | cons c cs ih =>
    cases ds with
    | nil =>
      obtain ⟨b, bs, hc⟩ := List.exists_cons_of_ne_nil (String.utf8EncodeChar_ne_nil (c := c))
      rw [utf8Bytes_cons, hc]
      rfl
    | cons d ds =>
      rw [utf8Bytes_cons, utf8Bytes_cons, List.map_cons, List.map_cons, List.compare_cons_cons]
      rcases Nat.lt_trichotomy c.toNat d.toNat with h | h | h
      · rw [((precedes_utf8EncodeChar h).append _ _).compare_eq_lt, Nat.compare_eq_lt.2 h]
        rfl
      · rw [h, Std.compare_self, Char.toNat_inj.1 h, compare_append_left, ih]
        rfl
      · rw [Nat.compare_eq_gt.2 h]
        exact Std.OrientedCmp.gt_iff_lt.2 ((precedes_utf8EncodeChar h).append _ _).compare_eq_lt

/-- **The order of the bytes is the order of the code points.**  This is the one fact about the
program's comparison that anything else about the order of texts is derived from. -/
theorem compareBytes_eq_compare (s t : String) :
    compareBytes s t = compare (codePoints s) (codePoints t) := compare_utf8Bytes _ _

/-- The comparison of two lists decides the lexicographic order. -/
theorem compare_eq_lt_iff_lex {xs ys : List Nat} :
    compare xs ys = .lt ↔ List.Lex (· < ·) xs ys := by
  induction xs generalizing ys with
  | nil =>
    cases ys with
    | nil => exact ⟨nofun, nofun⟩
    | cons y ys => exact ⟨fun _ ↦ .nil, fun _ ↦ List.compare_nil_cons⟩
  | cons x xs ih =>
    cases ys with
    | nil => exact ⟨nofun, nofun⟩
    | cons y ys =>
      rw [List.compare_cons_cons, Ordering.then_eq_lt, Nat.compare_eq_lt, Nat.compare_eq_eq, ih,
        List.cons_lex_cons_iff]

/-! ## Comparing values

An operator asks of an ordering whether it is one of those that it stands for. -/

/-- However two things are ordered, one is less, they are equal, or one is greater. -/
theorem Relation.existsUnique_holds (o : Ordering) :
    ∃! r : Relation, r ∈ [.less, .equal, .greater] ∧ r.holds o = true := by
  cases o with
  | lt => exact ⟨.less, by decide, fun r ↦ by cases r <;> decide⟩
  | eq => exact ⟨.equal, by decide, fun r ↦ by cases r <;> decide⟩
  | gt => exact ⟨.greater, by decide, fun r ↦ by cases r <;> decide⟩

/-- **The comparisons of texts are one total order.**  Of less, equal and greater exactly one holds,
greater being less the other way about.  The other three are unions of these and complements.  Less
is transitive: it is the order of the code points of the texts, from the first one on that differs,
a proper beginning first.  Equal means the same text. -/
theorem holds_of_texts :
    let holds (r : Relation) (v w : Value) : Prop := CmpOp.holds ⟨false, r⟩ v w = true
    ∀ x y z : Value,
      (∃! r, r ∈ [Relation.less, .equal, .greater] ∧ holds r x y) ∧
      (holds .greater x y ↔ holds .less y x) ∧
      (holds .lessEqual x y ↔ holds .less x y ∨ holds .equal x y) ∧
      (holds .greaterEqual x y ↔ holds .greater x y ∨ holds .equal x y) ∧
      (holds .notEqual x y ↔ holds .less x y ∨ holds .greater x y) ∧
      (∀ r : Relation, holds r.complement x y ↔ ¬holds r x y) ∧
      (holds .less x y → holds .less y z → holds .less x z) ∧
      (holds .less x y ↔ List.Lex (· < ·) (codePoints x.text) (codePoints y.text)) ∧
      (holds .equal x y ↔ x.text = y.text) := by
  intro holds x y z
  have hholds (r : Relation) (v w : Value) :
      holds r v w ↔ r.holds (compareBytes v.text w.text) = true := Iff.rfl
  have hless (v w : Value) : holds .less v w ↔ compareBytes v.text w.text = .lt := beq_iff_eq
  have hgreater (v w : Value) : holds .greater v w ↔ compareBytes v.text w.text = .gt := beq_iff_eq
  refine ⟨Relation.existsUnique_holds _, ?_, ?_, ?_, ?_, fun r ↦ ?_, ?_, ?_, ?_⟩
  · rw [hgreater, hless, compareBytes, compareBytes]
    exact Std.OrientedCmp.gt_iff_lt
  · simp only [hholds]
    cases compareBytes x.text y.text <;> decide
  · simp only [hholds]
    cases compareBytes x.text y.text <;> decide
  · simp only [hholds]
    cases compareBytes x.text y.text <;> decide
  · rw [hholds, hholds, r.holds_complement, Bool.not_eq_true', Bool.not_eq_true]
  · rw [hless, hless, hless, compareBytes, compareBytes, compareBytes]
    exact Std.TransCmp.lt_trans
  · rw [hless, compareBytes_eq_compare, compare_eq_lt_iff_lex]
  · exact beq_iff_eq.trans compareBytes_eq_eq_iff

/-- `10` is a number, and its text is before the text `9`, which is before `é`: in UTF-8 that is two
bytes, of which the first one is larger than the byte of any digit. -/
theorem holds_of_texts_mixed :
    let less : CmpOp := ⟨false, .less⟩
    less.holds (.number (.ofNat 10)) (.string "9") = true ∧
      less.holds (.string "9") (.string "é") = true ∧
      less.holds (.number (.ofNat 10)) (.string "é") = true := by
  intro less
  have hfirst : less.holds (.number (.ofNat 10)) (.string "9") = true := by decide
  have hsecond : less.holds (.string "9") (.string "é") = true := by decide
  obtain ⟨-, -, -, -, -, -, htrans, -⟩ :=
    holds_of_texts (.number (.ofNat 10)) (.string "9") (.string "é")
  exact ⟨hfirst, hsecond, htrans hfirst hsecond⟩

end RequestCondition

import Mathlib.Data.List.Basic
import RequestCondition.Regex.Basic

/-!
# Whether a pattern can be used does not depend on case

A pattern that is read has no meaning for one of two reasons: it asks for something that does not
exist, which it does with or without regard to case, or it would match bytes that are no text.  The
second can happen only where characters are not read as Unicode, and there every set that has a
meaning is a set of ASCII characters.  Taking case into account adds letters to a set, but no
others, so it stays ASCII; and a set of ASCII characters has bytes beyond ASCII among the others, so
negating it never has a meaning (`isSome_complemented?`).

Flags may change in the middle of a pattern, and what is changed may be the flag for case itself, so
the two readings are compared at flags that agree but for case, and what they leave agrees as well:
`Node.ofPatternAt?_forgetCase`.

Two inductions carry this.  The one over classes has `Readable` as its invariant: whatever has a
meaning is a set that may be negated with the same outcome in both readings.  The one over patterns
has `Node.LeaveAlike`: both readings succeed or neither, and the flags behind them agree but for
case.

Reading the text of a pattern does not look at the flag for case, so patterns as trees are all that
there is to look at.
-/

set_option autoImplicit false

namespace RequestCondition

namespace CharSet

variable {inside : Bool} {n : Nat} {fs : List Nat} {s t : CharSet}

/-! ## Sets of ASCII characters

A set is kept as the places where membership changes.  Whether it is ASCII is seen from the last of
them, and from what holds behind it. -/

/-- From the last change on, membership is what the number of changes says. -/
theorem insideAt_of_le (h : ∀ f ∈ fs, f ≤ n) :
    insideAt inside n fs = (inside != (fs.length % 2 == 1)) := by
  induction fs generalizing inside with
  | nil => simp [insideAt]
  | cons f fs ih =>
    rw [insideAt, if_neg (Nat.not_lt.2 (h f List.mem_cons_self)),
      ih fun g hg ↦ h g (List.mem_cons_of_mem f hg), List.length_cons]
    rcases Nat.mod_two_eq_zero_or_one fs.length with hfs | hfs <;> simp [Nat.add_mod, hfs]

/-- A set is ASCII if nothing changes beyond ASCII, and the first character beyond is no member. -/
theorem isAscii_iff :
    s.isAscii = true ↔ (∀ f ∈ s.flips, f ≤ 0x80) ∧ s.containsCode 0x80 = false := by
  rw [isAscii, Bool.and_eq_true, and_comm]
  simp only [List.all_eq_true, decide_eq_true_eq]
  refine and_congr_right fun h ↦ ?_
  rw [containsCode, insideAt_of_le h, beq_iff_eq]
  rcases Nat.mod_two_eq_zero_or_one s.flips.length with hs | hs <;> simp [hs]

theorem isAscii_range {lo hi : Nat} (h : hi < 0x80) : (range lo hi).isAscii = true := by
  rw [range]
  split
  · next hle =>
    have hlo : lo ≤ 0x80 := by omega
    have hhi : hi + 1 ≤ 0x80 := h
    simp [isAscii, hlo, hhi]
  · rfl

/-- The characters that are not in a set of ASCII characters are not all ASCII. -/
theorem isAscii_compl (h : s.isAscii = true) : s.compl.isAscii = false := by
  rw [Bool.eq_false_iff]
  intro hcompl
  have hout := (isAscii_iff.1 hcompl).2
  rw [containsCode_compl, (isAscii_iff.1 h).2] at hout
  exact absurd hout (by decide)

/-- Beyond all changes of two sets, what combines them combines their memberships. -/
theorem merge_of_le (op : Bool → Bool → Bool) {fuel : Nat} {a b : Bool} {xs ys : List Nat}
    (hfuel : xs.length + ys.length ≤ fuel) (hx : ∀ x ∈ xs, x ≤ n) (hy : ∀ y ∈ ys, y ≤ n) :
    (∀ z ∈ merge op fuel a b (op a b) xs ys, z ≤ n) ∧
      insideAt (op a b) n (merge op fuel a b (op a b) xs ys) =
        op (insideAt a n xs) (insideAt b n ys) := by
  induction fuel generalizing a b xs ys with
  | zero =>
    obtain rfl : xs = [] := List.eq_nil_of_length_eq_zero (by omega)
    obtain rfl : ys = [] := List.eq_nil_of_length_eq_zero (by omega)
    exact ⟨fun _ hz ↦ absurd hz List.not_mem_nil, rfl⟩
  | succ fuel ih =>
    -- a change is kept or not, and the rest is combined from the new memberships on
    have hstep {z : Nat} {a' b' : Bool} {xs' ys' : List Nat} (hz : z ≤ n)
        (hfuel' : xs'.length + ys'.length ≤ fuel) (hx' : ∀ x ∈ xs', x ≤ n)
        (hy' : ∀ y ∈ ys', y ≤ n) :
        (∀ w ∈ (if op a' b' == op a b then merge op fuel a' b' (op a b) xs' ys'
            else z :: merge op fuel a' b' (op a' b') xs' ys'), w ≤ n) ∧
          insideAt (op a b) n (if op a' b' == op a b then merge op fuel a' b' (op a b) xs' ys'
            else z :: merge op fuel a' b' (op a' b') xs' ys') =
          op (insideAt a' n xs') (insideAt b' n ys') := by
      obtain ⟨hle, hval⟩ := ih (a := a') (b := b') hfuel' hx' hy'
      split
      · next heq =>
        rw [beq_iff_eq] at heq
        rw [← heq]
        exact ⟨hle, hval⟩
      · next hne =>
        have hnot : (!op a b) = op a' b' := by
          rw [beq_iff_eq] at hne
          exact (Bool.eq_not_of_ne hne).symm
        refine ⟨List.forall_mem_cons.2 ⟨hz, hle⟩, ?_⟩
        rw [insideAt, if_neg (Nat.not_lt.2 hz), hnot, hval]
    cases xs with
    | nil =>
      cases ys with
      | nil => exact ⟨fun _ hz ↦ absurd hz List.not_mem_nil, rfl⟩
      | cons y ys =>
        obtain ⟨hy₀, hys⟩ := List.forall_mem_cons.1 hy
        rw [merge, insideAt.eq_2 b, if_neg (Nat.not_lt.2 hy₀)]
        exact hstep hy₀ (by simp at hfuel ⊢; omega) hx hys
    | cons x xs =>
      obtain ⟨hx₀, hxs⟩ := List.forall_mem_cons.1 hx
      cases ys with
      | nil =>
        rw [merge, insideAt.eq_2 a, if_neg (Nat.not_lt.2 hx₀)]
        exact hstep hx₀ (by simp at hfuel ⊢; omega) hxs hy
      | cons y ys =>
        obtain ⟨hy₀, hys⟩ := List.forall_mem_cons.1 hy
        simp only [List.length_cons] at hfuel
        rw [merge]
        simp only
        split
        · rw [insideAt.eq_2 a, if_neg (Nat.not_lt.2 hx₀)]
          exact hstep hx₀ (by simp only [List.length_cons]; omega) hxs hy
        split
        · rw [insideAt.eq_2 b, if_neg (Nat.not_lt.2 hy₀)]
          exact hstep hy₀ (by simp only [List.length_cons]; omega) hx hys
        · rw [insideAt.eq_2 a, if_neg (Nat.not_lt.2 hx₀), insideAt.eq_2 b,
            if_neg (Nat.not_lt.2 hy₀)]
          exact hstep hx₀ (by omega) hxs hys

/-- What combines sets of ASCII characters, and leaves out what is in neither, is ASCII. -/
theorem isAscii_combine {op : Bool → Bool → Bool} (hop : op false false = false)
    (hs : s.isAscii = true) (ht : t.isAscii = true) : (combine op s t).isAscii = true := by
  rw [isAscii_iff] at hs ht ⊢
  obtain ⟨hle, hval⟩ := merge_of_le op (a := false) (b := false)
    (Nat.le_refl (s.flips.length + t.flips.length)) hs.1 ht.1
  have hflips : (combine op s t).flips =
      merge op (s.flips.length + t.flips.length) false false (op false false) s.flips t.flips := by
    simp only [combine, hop, Bool.false_eq_true, if_false]
  rw [containsCode] at hs ht
  rw [containsCode, hflips]
  refine ⟨hle, ?_⟩
  rw [hop] at hval ⊢
  rw [hval, hs.2, ht.2, hop]

/-- A set that is made of single characters changes for the last time right behind the last one. -/
theorem flipsOfSorted_of_lt {ns : List Nat} {run : Option Nat} (hns : ∀ m ∈ ns, m < n)
    (hrun : ∀ e ∈ run, e ≤ n) :
    (∀ f ∈ flipsOfSorted run ns, f ≤ n) ∧
      insideAt run.isSome n (flipsOfSorted run ns) = false := by
  induction ns generalizing run with
  | nil =>
    cases run with
    | none => exact ⟨nofun, rfl⟩
    | some e =>
      have he : e ≤ n := hrun e rfl
      simp [flipsOfSorted, insideAt, he]
  | cons m ns ih =>
    obtain ⟨hm, hns⟩ := List.forall_mem_cons.1 hns
    have hgo (e : Nat) (he : e ≤ n) := ih hns (show ∀ f ∈ some e, f ≤ n by simpa using he)
    rw [flipsOfSorted.eq_def]
    cases run with
    | none =>
      obtain ⟨hle, hval⟩ := hgo (m + 1) hm
      refine ⟨List.forall_mem_cons.2 ⟨Nat.le_of_lt hm, hle⟩, ?_⟩
      rw [insideAt, if_neg (Nat.not_lt.2 (Nat.le_of_lt hm))]
      exact hval
    | some e =>
      have he : e ≤ n := hrun e rfl
      simp only
      split
      · exact hgo e he
      split
      · exact hgo (m + 1) hm
      · obtain ⟨hle, hval⟩ := hgo (m + 1) hm
        refine ⟨List.forall_mem_cons.2 ⟨he, List.forall_mem_cons.2 ⟨Nat.le_of_lt hm, hle⟩⟩, ?_⟩
        rw [insideAt, if_neg (Nat.not_lt.2 he), insideAt,
          if_neg (Nat.not_lt.2 (Nat.le_of_lt hm))]
        exact hval

theorem isAscii_ofCodes {ns : List Nat} (h : ∀ m ∈ ns, m < 0x80) : (ofCodes ns).isAscii = true := by
  have hsorted : ∀ m ∈ ns.mergeSort (· ≤ ·), m < 0x80 := fun m hm ↦ h m (List.mem_mergeSort.1 hm)
  obtain ⟨hle, hval⟩ := flipsOfSorted_of_lt hsorted (show ∀ e ∈ none, e ≤ 0x80 from nofun)
  exact isAscii_iff.2 ⟨hle, hval⟩

end CharSet

namespace Regex

variable {fs fs' : Flags} {s s' : CharSet} {negated : Bool}

/-! ## Sets that have a meaning

Every step in the reading of a class keeps a set readable, or has no result. -/

/-- A set of ASCII characters stays one if their other cases are added. -/
theorem isAscii_foldAscii (h : s.isAscii = true) : (foldAscii s).isAscii = true := by
  refine CharSet.isAscii_combine rfl h (CharSet.isAscii_ofCodes fun m hm ↦ ?_)
  obtain ⟨i, hi, hm⟩ := List.mem_flatMap.1 hm
  have hlt := List.mem_range.1 hi
  rcases List.mem_append.1 hm with hm | hm
  all_goals
    split at hm
    · rw [List.mem_singleton] at hm
      omega
    · cases hm

/-- A set that has a meaning where some flags hold: without Unicode, a set of ASCII characters. -/
def Readable (fs : Flags) (s : CharSet) : Prop := fs.unicode = true ∨ s.isAscii = true

/-- Regard to case keeps a set readable. -/
theorem Readable.foldBy (h : Readable fs s) : Readable fs (foldBy fs s) := by
  rw [Regex.foldBy]
  split
  · split
    · next hu => exact .inl hu
    · exact h.imp_right isAscii_foldAscii
  · exact h

theorem Readable.combine {t : CharSet} {op : Bool → Bool → Bool} (hop : op false false = false)
    (hs : Readable fs s) (ht : Readable fs t) : Readable fs (CharSet.combine op s t) := by
  rcases hs with hu | hs
  · exact .inl hu
  rcases ht with hu | ht
  · exact .inl hu
  exact .inr (CharSet.isAscii_combine hop hs ht)

theorem ClassOp.combine_readable {t : CharSet} (op : ClassOp) (hs : Readable fs s)
    (ht : Readable fs t) : Readable fs (op.combine s t) := by
  cases op <;> exact hs.combine rfl ht

/-- What is left by negation is readable. -/
theorem readable_of_complemented? (h : complemented? fs negated s = some s') : Readable fs s' := by
  rw [complemented?] at h
  generalize (if negated then s.compl else s) = t at h
  split at h
  · next hs =>
    obtain rfl := Option.some.inj h
    exact (Bool.or_eq_true _ _ ▸ hs : _ ∨ _)
  · cases h

/-- **Without Unicode a set can be had, and the others cannot.**  So whether negation succeeds is
known from the flags, and does not depend on the set. -/
theorem isSome_complemented? (h : Readable fs s) :
    (complemented? fs negated s).isSome = (fs.unicode || !negated) := by
  rw [complemented?]
  cases hu : fs.unicode with
  | true => rfl
  | false =>
    have hs : s.isAscii = true := h.resolve_left (by simp [hu])
    cases negated with
    | true => simp [CharSet.isAscii_compl hs]
    | false => simp [hs]

theorem isAscii_namedSet (c : NamedClass) : (namedSet c).isAscii = true := by
  cases c <;> decide +kernel

/-- A character that has a meaning without Unicode is one of ASCII. -/
theorem classCode?_readable {l : Literal} {m : Nat} (h : classCode? fs l = some m) :
    fs.unicode = true ∨ m < 0x80 := by
  rw [classCode?] at h
  split at h
  · cases h
  · next hl =>
    obtain rfl := Option.some.inj h
    cases hu : fs.unicode with
    | true => exact .inl rfl
    | false =>
      refine .inr ?_
      rw [hu] at hl
      simp at hl
      omega

mutual

/-- **A class that has a meaning is readable.**  The letters and ranges in it are of ASCII where
Unicode is not read, the named classes always are, and properties need Unicode. -/
theorem classSet?_readable : ∀ {c : ClassSet} {s : CharSet}, classSet? fs c = some s → Readable fs s
  | .empty, s, h => by
    rw [classSet?] at h
    obtain rfl := Option.some.inj h
    exact .inr rfl
  | .literal l, s, h => by
    rw [classSet?] at h
    obtain ⟨m, hm, rfl⟩ := Option.map_eq_some_iff.1 h
    exact (classCode?_readable hm).imp_right CharSet.isAscii_range
  | .range lo hi, s, h => by
    rw [classSet?] at h
    obtain ⟨a, -, h⟩ := Option.bind_eq_some_iff.1 h
    obtain ⟨b, hb, h⟩ := Option.bind_eq_some_iff.1 h
    obtain rfl := Option.some.inj h
    exact (classCode?_readable hb).imp_right CharSet.isAscii_range
  | .named _ _, s, h => by
    rw [classSet?] at h
    exact readable_of_complemented? h
  | .letter _ _, s, h => by
    rw [classSet?] at h
    exact readable_of_complemented? h
  | .property q negated, s, h => by
    rw [classSet?, propertySet?] at h
    split at h
    · next hu => exact .inl hu
    · cases h
  | .bracketed _ _, s, h => by
    rw [classSet?] at h
    obtain ⟨_, -, h⟩ := Option.bind_eq_some_iff.1 h
    exact readable_of_complemented? h
  | .union items, s, h => by
    rw [classSet?] at h
    exact classUnion?_readable h
  | .operation op l r, s, h => by
    rw [classSet?] at h
    obtain ⟨a, ha, h⟩ := Option.bind_eq_some_iff.1 h
    obtain ⟨b, hb, h⟩ := Option.bind_eq_some_iff.1 h
    obtain rfl := Option.some.inj h
    exact op.combine_readable (classSet?_readable ha).foldBy (classSet?_readable hb).foldBy

theorem classUnion?_readable : ∀ {cs : List ClassSet} {s : CharSet},
    classUnion? fs cs = some s → Readable fs s
  | [], s, h => by
    rw [classUnion?] at h
    obtain rfl := Option.some.inj h
    exact .inr rfl
  | c :: cs, s, h => by
    rw [classUnion?] at h
    obtain ⟨a, ha, h⟩ := Option.bind_eq_some_iff.1 h
    obtain ⟨b, hb, h⟩ := Option.bind_eq_some_iff.1 h
    obtain rfl := Option.some.inj h
    exact (classSet?_readable ha).combine rfl (classUnion?_readable hb)

end

/-! ## Case forgotten

The two readings are those under some flags and under the same flags with case taken into account.
A set is readable under both or under neither. -/

/-- The flags with case taken into account. -/
def Flags.forgetCase (fs : Flags) : Flags := { fs with ignoreCase := false }

/-- Setting a flag makes flags that agree but for case agree but for case. -/
theorem Flags.forgetCase_set (fs : Flags) (p : Flag × Bool) :
    (fs.set p).forgetCase = (fs.forgetCase.set p).forgetCase := by
  obtain ⟨flag, b⟩ := p
  cases flag <;> rfl

theorem Flags.forgetCase_setAll (fs : Flags) (settings : FlagSettings) :
    (fs.setAll settings).forgetCase = (fs.forgetCase.setAll settings).forgetCase := by
  induction settings generalizing fs with
  | nil => rfl
  | cons p settings ih =>
    rw [setAll, setAll, List.foldl_cons, List.foldl_cons, ← setAll, ← setAll, ih,
      ih (fs.forgetCase.set p), forgetCase_set]

theorem Readable.forgetCase_iff : Readable fs.forgetCase s ↔ Readable fs s := Iff.rfl

/-- Negation of readable sets succeeds in both readings or in neither. -/
theorem isSome_complemented?_forgetCase (h : Readable fs s) (h' : Readable fs s') :
    (complemented? fs negated s).isSome = (complemented? fs.forgetCase negated s').isSome := by
  rw [isSome_complemented? h, isSome_complemented? (Readable.forgetCase_iff.2 h')]
  rfl

theorem isSome_propertySet?_forgetCase (q : PropertyQuery) :
    (propertySet? fs q negated).isSome = (propertySet? fs.forgetCase q negated).isSome := by
  have hu : fs.forgetCase.unicode = fs.unicode := rfl
  rw [propertySet?, propertySet?, hu]
  split
  · next hunicode =>
    cases querySet? q with
    | none => rfl
    | some s => exact isSome_complemented?_forgetCase (.inl hunicode) (.inl hunicode)
  · rfl

/-- Readings that go on in the same cases have a meaning in the same cases. -/
theorem isSome_bind {α β γ δ : Type} {x : Option α} {y : Option β} {f : α → Option γ}
    {g : β → Option δ} (h : x.isSome = y.isSome)
    (hfg : ∀ a ∈ x, ∀ b ∈ y, (f a).isSome = (g b).isSome) :
    (x >>= f).isSome = (y >>= g).isSome := by
  cases x with
  | none =>
    cases y with
    | none => rfl
    | some b => cases h
  | some a =>
    cases y with
    | none => cases h
    | some b => exact hfg a rfl b rfl

mutual

/-- **A class has a meaning in both readings or in neither.** -/
theorem isSome_classSet?_forgetCase : ∀ c : ClassSet,
    (classSet? fs c).isSome = (classSet? fs.forgetCase c).isSome
  | .empty | .literal _ | .range _ _ | .letter _ _ => by
    rw [classSet?, classSet?] <;> rfl
  | .named c negated => by
    have hc : Readable fs (namedSet c) := .inr (isAscii_namedSet c)
    rw [classSet?, classSet?]
    have hc' : Readable fs.forgetCase (namedSet c) := hc
    exact isSome_complemented?_forgetCase hc.foldBy hc'.foldBy
  | .property q negated => by
    rw [classSet?, classSet?]
    exact isSome_propertySet?_forgetCase q
  | .bracketed negated c => by
    rw [classSet?, classSet?]
    exact isSome_bind (isSome_classSet?_forgetCase c) fun a ha b hb ↦
      isSome_complemented?_forgetCase (classSet?_readable ha).foldBy (classSet?_readable hb).foldBy
  | .union items => by
    rw [classSet?, classSet?]
    exact isSome_classUnion?_forgetCase items
  | .operation op l r => by
    rw [classSet?, classSet?]
    exact isSome_bind (isSome_classSet?_forgetCase l) fun _ _ _ _ ↦
      isSome_bind (isSome_classSet?_forgetCase r) fun _ _ _ _ ↦ rfl

theorem isSome_classUnion?_forgetCase : ∀ cs : List ClassSet,
    (classUnion? fs cs).isSome = (classUnion? fs.forgetCase cs).isSome
  | [] => by rw [classUnion?, classUnion?]
  | c :: cs => by
    rw [classUnion?, classUnion?]
    exact isSome_bind (isSome_classSet?_forgetCase c) fun _ _ _ _ ↦
      isSome_bind (isSome_classUnion?_forgetCase cs) fun _ _ _ _ ↦ rfl

end

/-! ## Patterns

A pattern hands its flags on to what stands behind it, so two patterns in a row are compared from
flags that agree but for case. -/

namespace Node

/-- Readings that have a meaning in the same cases, and leave flags that agree but for case. -/
def LeaveAlike {α : Type} (x y : Option (α × Flags)) : Prop :=
  x.map (·.2.forgetCase) = y.map (·.2.forgetCase)

namespace LeaveAlike

variable {α β : Type}

/-- Readings that leave the flags as they are. -/
theorem of_isSome {x y : Option β} {f g : β → α} (h : x.isSome = y.isSome) :
    LeaveAlike (x.map fun b ↦ (f b, fs)) (y.map fun b ↦ (g b, fs.forgetCase)) := by
  cases x <;> cases y
  · rfl
  · cases h
  · cases h
  · rfl

/-- Flags that agree but for case, given the comparison with case taken into account. -/
theorem of_forgetCase {read : Flags → Option (α × Flags)}
    (h : ∀ fs, LeaveAlike (read fs) (read fs.forgetCase)) (hfs : fs.forgetCase = fs'.forgetCase) :
    LeaveAlike (read fs) (read fs') :=
  (h fs).trans (hfs ▸ (h fs').symm)

/-- Readings one behind the other. -/
theorem bind {x y : Option (α × Flags)} {f g : α × Flags → Option (β × Flags)}
    (h : LeaveAlike x y)
    (hfg : ∀ a b, a.2.forgetCase = b.2.forgetCase → LeaveAlike (f a) (g b)) :
    LeaveAlike (x >>= f) (y >>= g) := by
  cases x with
  | none =>
    cases y with
    | none => rfl
    | some b => cases h
  | some a =>
    cases y with
    | none => cases h
    | some b => exact hfg a b (Option.some.inj h)

end LeaveAlike

mutual

/-- **A pattern has a meaning in both readings or in neither**, and leaves flags that agree but for
case. -/
theorem ofPatternAt?_forgetCase : ∀ (p : Pattern) (fs : Flags),
    LeaveAlike (ofPatternAt? fs p) (ofPatternAt? fs.forgetCase p)
  | .empty, fs | .assertion _, fs => by
    rw [ofPatternAt?, ofPatternAt?]
    rfl
  | .flags settings, fs => by
    rw [ofPatternAt?, ofPatternAt?]
    exact congrArg some (fs.forgetCase_setAll settings)
  | .literal l, fs => by
    rw [ofPatternAt?, ofPatternAt?]
    exact .of_isSome rfl
  | .dot, fs => by
    rw [ofPatternAt?, ofPatternAt?]
    exact .of_isSome rfl
  | .letter c negated, fs => by
    rw [ofPatternAt?, ofPatternAt?]
    exact .of_isSome rfl
  | .property q negated, fs => by
    rw [ofPatternAt?, ofPatternAt?]
    exact .of_isSome (isSome_propertySet?_forgetCase q)
  | .bracketed negated inside, fs => by
    rw [ofPatternAt?, ofPatternAt?, ← bind_assoc, ← bind_assoc, bind_pure_comp, bind_pure_comp]
    refine .of_isSome (isSome_bind (isSome_classSet?_forgetCase inside) fun a ha b hb ↦ ?_)
    exact isSome_complemented?_forgetCase (classSet?_readable ha).foldBy
      (classSet?_readable hb).foldBy
  | .repetition min max greedy p, fs => by
    rw [ofPatternAt?, ofPatternAt?]
    exact (ofPatternAt?_forgetCase p fs).bind fun _ _ h ↦ congrArg some h
  | .group (.capture i) p, fs => by
    rw [ofPatternAt?, ofPatternAt?]
    exact (ofPatternAt?_forgetCase p fs).bind fun _ _ _ ↦ rfl
  | .group (.plain settings) p, fs => by
    rw [ofPatternAt?, ofPatternAt?]
    exact (LeaveAlike.of_forgetCase (ofPatternAt?_forgetCase p)
      (fs.forgetCase_setAll settings)).bind fun _ _ _ ↦ rfl
  | .alternation ps, fs => by
    rw [ofPatternAt?, ofPatternAt?]
    exact (ofPatternsAt?_forgetCase ps fs).bind fun _ _ h ↦ congrArg some h
  | .concat ps, fs => by
    rw [ofPatternAt?, ofPatternAt?]
    exact (ofPatternsAt?_forgetCase ps fs).bind fun _ _ h ↦ congrArg some h

theorem ofPatternsAt?_forgetCase : ∀ (ps : List Pattern) (fs : Flags),
    LeaveAlike (ofPatternsAt? fs ps) (ofPatternsAt? fs.forgetCase ps)
  | [], fs => by
    rw [ofPatternsAt?, ofPatternsAt?]
    rfl
  | p :: ps, fs => by
    rw [ofPatternsAt?, ofPatternsAt?]
    exact (ofPatternAt?_forgetCase p fs).bind fun a b h ↦
      (LeaveAlike.of_forgetCase (ofPatternsAt?_forgetCase ps) h).bind fun _ _ h ↦ congrArg some h

end

end Node

/-- **Whether the engine at hand can use a pattern does not depend on case.** -/
theorem Engine.standard_compilesAlike : Engine.standard.CompilesAlike := by
  intro pattern ignoreCase ignoreCase'
  have hforget (b : Bool) (p : Pattern) :
      (Node.ofPattern? b p).isSome = (Node.ofPattern? false p).isSome := by
    have h := congrArg Option.isSome (Node.ofPatternAt?_forgetCase p (.initial b))
    rwa [Option.isSome_map, Option.isSome_map, ← Option.isSome_map (f := Prod.fst),
      ← Option.isSome_map (f := Prod.fst)] at h
  simp only [standard, node?]
  cases Pattern.ofText? pattern with
  | none => rfl
  | some p => exact (hforget _ p).trans (hforget _ p).symm

end Regex

end RequestCondition

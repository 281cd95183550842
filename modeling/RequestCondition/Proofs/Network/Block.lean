import Mathlib.Algebra.Order.Ring.Nat
import Mathlib.Tactic.Positivity
import RequestCondition.Function.Builtin

/-!
# Which addresses a block contains

Masking keeps the leading bits of an address, and what it keeps is the address divided by a power of
two, without the remainder.  So an address is in a block exactly if the two quotients are the same
(`agree_iff`): for every number of bits, from none, where all quotients are zero, to all of them,
where they are the addresses themselves.

`Block.Names` says what a text has to look like to name a block, and `inNetwork_of_texts` decides
the test of two texts by it.  From the quotients it is plain that a block with fewer bits contains
what a block with more bits contains, and that an address and the base of a block may change places.

Addresses are of one of two lengths, and nothing here depends on which: the two kinds of addresses
are taken together by `Address.width` and `Address.toNat`, and masks are treated for words of any
length.  What a text has to look like to be an address is left to the readers.  They are not opened,
neither for the address that is asked about nor for the base of the network.
-/

set_option autoImplicit false

namespace RequestCondition

/-! ## Addresses as numbers

An address of `w` bits is a number below `2 ^ w`.  Its first `n` bits are what is left of the number
when it is divided by `2 ^ (w - n)`. -/

namespace Address

/-- The number of bits of an address. -/
def width : Address → ℕ
  | v4 _ => 32
  | v6 _ => 128

/-- The number that the bits of an address make. -/
def toNat : Address → ℕ
  | v4 x => x.toNat
  | v6 x => x.toNat

/-- The number that the first `n` bits of an address make. -/
def leading (n : ℕ) (a : Address) : ℕ := a.toNat / 2 ^ (a.width - n)

/-- Fewer bits are the first ones of more bits. -/
theorem leading_of_le {a : Address} {k n : ℕ} (hk : k ≤ n) (hn : n ≤ a.width) :
    a.leading k = a.leading n / 2 ^ (n - k) := by
  have hexp : a.width - k = a.width - n + (n - k) := by omega
  rw [leading, leading, hexp, pow_add, Nat.div_div_eq_div_mul]

end Address

/-! ## Masks

A mask of `n` ones at the top has zeros in the last `w - n` places, so masking rounds down to a
multiple of `2 ^ (w - n)`.  Two words that are rounded to the same multiple have the same
quotient. -/

namespace Block

variable {w n : ℕ} {s : String} {a : Address}

/-- Masking rounds down. -/
theorem toNat_and_leadingOnes (x : BitVec w) :
    (x &&& leadingOnes w n).toNat = x.toNat / 2 ^ (w - n) * 2 ^ (w - n) := by
  rw [leadingOnes, ← BitVec.shiftLeft_ushiftRight, BitVec.toNat_shiftLeft, BitVec.toNat_ushiftRight,
    Nat.shiftRight_eq_div_pow, Nat.shiftLeft_eq]
  exact Nat.mod_eq_of_lt ((Nat.div_mul_le_self _ _).trans_lt x.isLt)

/-- **Masked words are equal** if the words are, up to the bits that are masked. -/
theorem agree_iff (x y : BitVec w) :
    agree n x y = true ↔ x.toNat / 2 ^ (w - n) = y.toNat / 2 ^ (w - n) := by
  rw [agree, beq_iff_eq, ← BitVec.toNat_inj, toNat_and_leadingOnes, toNat_and_leadingOnes]
  exact Nat.mul_left_inj (by positivity)

/-- The comparison of masked words decides whether the quotients are equal. -/
theorem agree_eq_decide (x y : BitVec w) :
    agree n x y = decide (x.toNat / 2 ^ (w - n) = y.toNat / 2 ^ (w - n)) := by
  rw [Bool.eq_iff_iff, decide_eq_true_eq, agree_iff]

/-- The number of bits that the members of a block share with its base: all of them if it does not
say. -/
def sharedBits (b : Block) : ℕ := b.bits?.getD b.base.width

/-- A block of addresses of another length contains nothing. -/
theorem contains?_of_width_ne {b : Block} (h : b.base.width ≠ a.width) :
    b.contains? a = some false := by
  obtain ⟨base, bits?⟩ := b
  cases a <;> cases base <;> first | rfl | exact absurd rfl h

/-- **What a block contains**, of addresses of its length. -/
theorem contains?_of_width_eq {b : Block} (h : b.base.width = a.width) :
    b.contains? a =
      if a.width < b.sharedBits then none
      else some (decide (a.leading b.sharedBits = b.base.leading b.sharedBits)) := by
  obtain ⟨base, bits?⟩ := b
  cases a with
  | v4 x =>
    cases base with
    | v4 y =>
      simp only [contains?, agree_eq_decide]
      rfl
    | v6 y => simp [Address.width] at h
  | v6 x =>
    cases base with
    | v4 y => simp [Address.width] at h
    | v6 y =>
      simp only [contains?, agree_eq_decide]
      rfl

/-! ## Texts of blocks

The text is taken without the blanks around it.  The first slash is what counts, so a second one
would be a part of the number and spoil it. -/

/-- The text of a block, blanks around it or not: an address; or, in front of the first slash, an
address, and behind it a number of bits. -/
inductive Names (s : String) : Address → ℕ → Prop
  | alone {base : Address} (h : '/' ∉ trimBlanks s.toList)
      (hbase : Address.ofText? (String.ofList (trimBlanks s.toList)) = some base) :
      Names s base base.width
  | withBits {address number : List Char} {base : Address} {bits : ℕ}
      (h : trimBlanks s.toList = address ++ '/' :: number) (hslash : '/' ∉ address)
      (hbase : Address.ofText? (String.ofList address) = some base)
      (hbits : Decimal.word32? number = some bits) : Names s base bits

/-- Cutting at the first slash finds the two parts. -/
theorem takeWhile_slash {address : List Char} (h : '/' ∉ address) (number : List Char) :
    (address ++ '/' :: number).takeWhile (· != '/') = address ∧
      ((address ++ '/' :: number).dropWhile (· != '/')).tail = number := by
  have hne : ∀ c ∈ address, (c != '/') = true := by
    intro c hc
    exact bne_iff_ne.2 fun hs ↦ h (hs ▸ hc)
  rw [List.takeWhile_append_of_pos hne, List.dropWhile_append_of_pos hne]
  simp

/-- **Reading finds the block** that a text names, and with it the number of bits, be it written or
not. -/
theorem ofText?_of_names {base : Address} (h : Names s base n) :
    ∃ b, ofText? s = some b ∧ b.base = base ∧ b.sharedBits = n := by
  cases h with
  | alone h hbase =>
    have hslash : (trimBlanks s.toList).contains '/' = false := by simpa using h
    refine ⟨⟨base, none⟩, ?_, rfl, rfl⟩
    simp only [ofText?, hslash, Bool.false_eq_true, if_false, hbase, Option.map_some]
  | @withBits address number _ _ h hslash hbase hbits =>
    obtain ⟨htake, hdrop⟩ := takeWhile_slash hslash number
    refine ⟨⟨base, some n⟩, ?_, rfl, rfl⟩
    simp [ofText?, h, htake, hdrop, hbase, hbits]

/-- A text that is read as a block names one. -/
theorem names_of_ofText? {b : Block} (h : ofText? s = some b) : Names s b.base b.sharedBits := by
  simp only [ofText?] at h
  split at h
  · next hslash =>
    obtain ⟨bits, hbits, h⟩ := Option.bind_eq_some_iff.1 h
    obtain ⟨base, hbase, h⟩ := Option.bind_eq_some_iff.1 h
    cases h
    obtain ⟨address, number, hcs, hnot⟩ := List.eq_append_cons_of_mem
      (show '/' ∈ trimBlanks s.toList by simpa using hslash)
    obtain ⟨htake, hdrop⟩ := takeWhile_slash hnot number
    rw [hcs, hdrop] at hbits
    rw [hcs, htake] at hbase
    exact .withBits hcs hnot hbase hbits
  · next hslash =>
    obtain ⟨base, hbase, rfl⟩ := Option.map_eq_some_iff.1 h
    exact .alone (by simpa using hslash) hbase

/-! ## The test of two texts

The two definitions are opened by `delta`, since their equation lemmas would have to be proved by
running the readers of addresses. -/

variable {address network : String}

theorem containsText?_of_none (ha : Address.ofText? (trim address) = none) :
    containsText? address network = some false := by
  delta containsText?
  rw [ha]

theorem containsText?_of_some (ha : Address.ofText? (trim address) = some a) :
    containsText? address network = (ofText? network).bind (·.contains? a) := by
  delta containsText?
  rw [ha]
  cases ofText? network <;> rfl

end Block

namespace Builtin

variable {address network : String} {a base : Address} {n : ℕ}

theorem inNetwork_of_some {b : Bool} (h : Block.containsText? address network = some b) :
    inNetwork address network = .ok (.boolean b) := by
  delta inNetwork
  rw [h]

theorem inNetwork_of_none (h : Block.containsText? address network = none) :
    inNetwork address network = .error (.badNetwork network) := by
  delta inNetwork
  rw [h]

/-- What is not an address is in no network, sensible or not. -/
theorem inNetwork_of_not_address (h : Address.ofText? (trim address) = none) :
    inNetwork address network = .ok (.boolean false) :=
  inNetwork_of_some (Block.containsText?_of_none h)

theorem inNetwork_of_not_names (ha : Address.ofText? (trim address) = some a)
    (hn : ¬∃ base n, Block.Names network base n) :
    inNetwork address network = .error (.badNetwork network) := by
  have hb : Block.ofText? network = none := by
    rw [Option.eq_none_iff_forall_ne_some]
    intro b hb
    exact hn ⟨_, _, Block.names_of_ofText? hb⟩
  refine inNetwork_of_none ?_
  rw [Block.containsText?_of_some ha, hb, Option.bind_none]

/-- An address of the other length is not in the network, however many bits that asks for. -/
theorem inNetwork_of_width_ne (ha : Address.ofText? (trim address) = some a)
    (hn : Block.Names network base n) (hw : base.width ≠ a.width) :
    inNetwork address network = .ok (.boolean false) := by
  obtain ⟨b, hb, rfl, rfl⟩ := Block.ofText?_of_names hn
  refine inNetwork_of_some ?_
  rw [Block.containsText?_of_some ha, hb, Option.bind_some, Block.contains?_of_width_ne hw]

/-- For an address of its length the network is checked, and then the quotients decide. -/
theorem inNetwork_of_width_eq (ha : Address.ofText? (trim address) = some a)
    (hn : Block.Names network base n) (hw : base.width = a.width) :
    inNetwork address network =
      if a.width < n then .error (.badNetwork network)
      else .ok (.boolean (decide (a.leading n = base.leading n))) := by
  obtain ⟨b, hb, rfl, rfl⟩ := Block.ofText?_of_names hn
  have h : Block.containsText? address network = _ := Block.containsText?_of_some ha
  rw [hb, Option.bind_some, Block.contains?_of_width_eq hw] at h
  split at h
  · next hlt => rw [if_pos hlt, inNetwork_of_none h]
  · next hlt => rw [if_neg hlt, inNetwork_of_some h]

/-- Where an address is found in a network, the network is one of its length, and does not ask for
more bits than there are. -/
theorem inNetwork_eq_true_iff (hn : Block.Names network base n) :
    inNetwork address network = .ok (.boolean true) ↔
      ∃ a, Address.ofText? (trim address) = some a ∧ base.width = a.width ∧ n ≤ a.width ∧
        a.leading n = base.leading n := by
  constructor
  · intro h
    cases ha : Address.ofText? (trim address) with
    | none =>
      rw [inNetwork_of_not_address ha] at h
      cases h
    | some a =>
      by_cases hw : base.width = a.width
      · rw [inNetwork_of_width_eq ha hn hw] at h
        split at h
        · cases h
        · next hle => exact ⟨a, rfl, hw, not_lt.1 hle, by simpa using h⟩
      · rw [inNetwork_of_width_ne ha hn hw] at h
        cases h
  · rintro ⟨a, ha, hw, hle, heq⟩
    rw [inNetwork_of_width_eq ha hn hw, if_neg (not_lt.2 hle), decide_eq_true heq]

/-- **The test of two texts.**  A text that is not an address is in no network.  An address is in no
network of the other length.  It is in a network of its length if the two agree in the bits that the
network asks for, that is, in the quotients by a power of two; a network that asks for more bits
than there are makes no sense, nor does a text that names none.  So an address is in every network
with the same base that asks for fewer bits, and the address and the base may be exchanged. -/
theorem inNetwork_of_texts (address network : String) :
    (Address.ofText? (trim address) = none →
      inNetwork address network = .ok (.boolean false)) ∧
    (∀ a, Address.ofText? (trim address) = some a →
      ((¬∃ base n, Block.Names network base n) →
        inNetwork address network = .error (.badNetwork network)) ∧
      ∀ base n, Block.Names network base n →
        (base.width ≠ a.width → inNetwork address network = .ok (.boolean false)) ∧
        (base.width = a.width → inNetwork address network =
          if a.width < n then .error (.badNetwork network)
          else .ok (.boolean
            (decide (a.toNat / 2 ^ (a.width - n) = base.toNat / 2 ^ (a.width - n)))))) ∧
    (EvalError.badNetwork network).kind = .typeMismatch ∧
    (∀ base n network' k, Block.Names network base n → Block.Names network' base k → k ≤ n →
      inNetwork address network = .ok (.boolean true) →
        inNetwork address network' = .ok (.boolean true)) ∧
    (∀ a base n address' network', Address.ofText? (trim address) = some a →
      Block.Names network base n → Address.ofText? (trim address') = some base →
        Block.Names network' a n →
          (inNetwork address network).toOption = (inNetwork address' network').toOption) := by
  refine ⟨inNetwork_of_not_address, ?_, rfl, ?_, ?_⟩
  · intro a ha
    refine ⟨inNetwork_of_not_names ha, fun base n hn ↦ ⟨inNetwork_of_width_ne ha hn, fun hw ↦ ?_⟩⟩
    rw [inNetwork_of_width_eq ha hn hw, Address.leading, Address.leading, hw]
  · intro base n network' k hn hk hle h
    obtain ⟨a, ha, hw, hna, heq⟩ := (inNetwork_eq_true_iff hn).1 h
    refine (inNetwork_eq_true_iff hk).2 ⟨a, ha, hw, hle.trans hna, ?_⟩
    rw [Address.leading_of_le hle hna, Address.leading_of_le hle (hw ▸ hna), heq]
  · intro a base n address' network' ha hn ha' hn'
    by_cases hw : base.width = a.width
    · rw [inNetwork_of_width_eq ha hn hw, inNetwork_of_width_eq ha' hn' hw.symm, hw]
      split
      · rfl
      · simp only [eq_comm]
    · rw [inNetwork_of_width_ne ha hn hw, inNetwork_of_width_ne ha' hn' (Ne.symm hw)]

/-- An address and two networks with the same base, the second of which asks for no bits at all; and
a network of the other kind that asks for too many. -/
theorem inNetwork_of_texts_loopback :
    inNetwork " 127.0.0.1" "127.255.0.9/8" = .ok (.boolean true) ∧
      inNetwork " 127.0.0.1" "127.255.0.9/0" = .ok (.boolean true) ∧
      inNetwork "::1" "::/129" = .error (.badNetwork "::/129") := by
  have hv4 : Address.ofText? (trim " 127.0.0.1") = some (.v4 0x7f000001#32) := by decide
  have hv6 : Address.ofText? (trim "::1") = some (.v6 1#128) := by decide
  have h8 : Block.Names "127.255.0.9/8" (.v4 0x7fff0009#32) 8 :=
    @Block.Names.withBits _ "127.255.0.9".toList ['8'] _ _ (by decide) (by decide) (by decide)
      (by decide)
  have h0 : Block.Names "127.255.0.9/0" (.v4 0x7fff0009#32) 0 :=
    @Block.Names.withBits _ "127.255.0.9".toList ['0'] _ _ (by decide) (by decide) (by decide)
      (by decide)
  have h129 : Block.Names "::/129" (.v6 0#128) 129 :=
    @Block.Names.withBits _ "::".toList "129".toList _ _ (by decide) (by decide) (by decide)
      (by decide)
  obtain ⟨-, hmember, -, hfewer, -⟩ := inNetwork_of_texts " 127.0.0.1" "127.255.0.9/8"
  obtain ⟨-, hmember', -⟩ := inNetwork_of_texts "::1" "::/129"
  have h := ((hmember _ hv4).2 _ _ h8).2 rfl
  exact ⟨h, hfewer _ _ _ _ h8 h0 (by decide) h, ((hmember' _ hv6).2 _ _ h129).2 rfl⟩

end Builtin

end RequestCondition

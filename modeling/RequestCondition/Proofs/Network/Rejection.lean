import RequestCondition.Proofs.Network.Block

/-!
# Which networks are rejected

A text that names no block is rejected whoever asks.  A block that asks for more bits than its
addresses have is rejected too, but the number of bits is looked at only once an address has been
found to have the length of the base.  An address of the other length is told that it is not in the
network (`inNetwork_of_width_ne`).

So whether a network is rejected does depend on the address that asks (`not_rejects_alike`), and
`rejects_alike_iff` says when: where the two addresses are of different lengths and the block is too
long for its own.

The answer that the second address gets is never that it is in the network.  So the difference is
between an error and a test that fails, and a condition that negates the test tells them apart as
well.
-/

set_option autoImplicit false

namespace RequestCondition

theorem Address.width_eq_or (a : Address) : a.width = 32 ∨ a.width = 128 := by
  cases a with
  | v4 _ => exact .inl rfl
  | v6 _ => exact .inr rfl

/-- There are two lengths of addresses, so one that differs from two others makes them equal. -/
theorem Address.width_eq_of_ne {a b c : Address} (hab : a.width ≠ b.width)
    (hcb : c.width ≠ b.width) : a.width = c.width := by
  rcases a.width_eq_or with ha | ha <;> rcases b.width_eq_or with hb | hb <;>
    rcases c.width_eq_or with hc | hc <;> omega

namespace Block

variable {s : String} {base base' : Address} {n n' : ℕ}

/-- A text names one block at most. -/
theorem Names.unique (h : Names s base n) (h' : Names s base' n') : base = base' ∧ n = n' := by
  obtain ⟨b, hb, rfl, rfl⟩ := ofText?_of_names h
  obtain ⟨b', hb', rfl, rfl⟩ := ofText?_of_names h'
  rw [hb] at hb'
  obtain rfl := Option.some.inj hb'
  exact ⟨rfl, rfl⟩

/-- The text names a block that asks for more bits than its base has. -/
def Overlong (s : String) : Prop := ∃ base n, Names s base n ∧ base.width < n

theorem names_33 : Names "10.0.0.0/33" (.v4 0x0a000000#32) 33 :=
  @Names.withBits _ "10.0.0.0".toList "33".toList _ _ (by decide) (by decide) (by decide)
    (by decide)

theorem overlong_33 : Overlong "10.0.0.0/33" := ⟨_, _, names_33, by decide⟩

end Block

namespace Builtin

variable {network address address' : String} {a a' : Address}

/-- Asking whether an address is in a network is a type error. -/
def Rejects (network address : String) : Prop :=
  ∃ e, inNetwork address network = .error e ∧ e.kind = .typeMismatch

theorem Rejects.of_error (h : inNetwork address network = .error (.badNetwork network)) :
    Rejects network address :=
  ⟨_, h, rfl⟩

theorem not_rejects_of_ok {v : Value} (h : inNetwork address network = .ok v) :
    ¬ Rejects network address := by
  rintro ⟨e, he, -⟩
  rw [h] at he
  cases he

/-- **What an address finds wrong with a network**: that the text names no block, or that the block
has addresses of the same length and asks for more bits than they have.  The second is not found by
an address of the other length, which is answered before. -/
theorem rejects_iff (ha : Address.ofText? (trim address) = some a) :
    Rejects network address ↔ (¬∃ base n, Block.Names network base n) ∨
      ∃ base n, Block.Names network base n ∧ base.width = a.width ∧ base.width < n := by
  constructor
  · intro h
    by_contra hnot
    obtain ⟨hnames, hlong⟩ := not_or.1 hnot
    obtain ⟨base, n, hn⟩ := not_not.1 hnames
    by_cases hw : base.width = a.width
    · have hle : ¬ a.width < n := fun hlt ↦ hlong ⟨base, n, hn, hw, hw ▸ hlt⟩
      have hok := inNetwork_of_width_eq ha hn hw
      rw [if_neg hle] at hok
      exact not_rejects_of_ok hok h
    · exact not_rejects_of_ok (inNetwork_of_width_ne ha hn hw) h
  · rintro (hnames | ⟨base, n, hn, hw, hlt⟩)
    · exact .of_error (inNetwork_of_not_names ha hnames)
    · refine .of_error ?_
      rw [inNetwork_of_width_eq ha hn hw, if_pos (hw ▸ hlt)]

/-- Addresses of one length find the same wrong. -/
theorem rejects_iff_of_width_eq (ha : Address.ofText? (trim address) = some a)
    (ha' : Address.ofText? (trim address') = some a') (hw : a.width = a'.width) :
    Rejects network address ↔ Rejects network address' := by
  rw [rejects_iff ha, rejects_iff ha', hw]

/-- What every address finds wrong is that no block is named. -/
theorem rejects_iff_of_not_overlong (ha : Address.ofText? (trim address) = some a)
    (h : ¬ Block.Overlong network) :
    Rejects network address ↔ ¬∃ base n, Block.Names network base n := by
  rw [rejects_iff ha]
  exact or_iff_left fun ⟨base, n, hn, _, hlt⟩ ↦ h ⟨base, n, hn, hlt⟩

/-- Of two addresses of different lengths one rejects a block that is too long, and the other does
not. -/
theorem not_rejects_iff_of_overlong (ha : Address.ofText? (trim address) = some a)
    (ha' : Address.ofText? (trim address') = some a') (hw : a.width ≠ a'.width)
    (h : Block.Overlong network) : ¬ (Rejects network address ↔ Rejects network address') := by
  obtain ⟨base, n, hn, hlt⟩ := h
  have hreject {t : String} {b : Address} (hb : Address.ofText? (trim t) = some b) :
      Rejects network t ↔ base.width = b.width := by
    rw [rejects_iff hb, or_iff_right (not_not.2 ⟨base, n, hn⟩)]
    constructor
    · rintro ⟨base', n', hn', hw', -⟩
      rwa [(hn.unique hn').1]
    · exact fun hw' ↦ ⟨base, n, hn, hw', hlt⟩
  rw [hreject ha, hreject ha']
  intro hiff
  by_cases hbase : base.width = a.width
  · exact hw (hbase.symm.trans (hiff.1 hbase))
  · exact hbase (hiff.2 (Address.width_eq_of_ne hbase hw.symm))

/-- **When two addresses agree that a network makes no sense**: if they are of one length, or if the
block is not too long for its own addresses.  Where they do not agree, the one that does not reject
the network is not in it. -/
theorem rejects_alike_iff (ha : Address.ofText? (trim address) = some a)
    (ha' : Address.ofText? (trim address') = some a') :
    ((Rejects network address ↔ Rejects network address') ↔
        a.width = a'.width ∨ ¬ Block.Overlong network) ∧
      (Rejects network address → ¬ Rejects network address' →
        inNetwork address' network = .ok (.boolean false)) := by
  refine ⟨⟨fun h ↦ ?_, ?_⟩, fun h h' ↦ ?_⟩
  · by_contra hnot
    obtain ⟨hw, hlong⟩ := not_or.1 hnot
    exact not_rejects_iff_of_overlong ha ha' hw (not_not.1 hlong) h
  · rintro (hw | hlong)
    · exact rejects_iff_of_width_eq ha ha' hw
    · rw [rejects_iff_of_not_overlong ha hlong, rejects_iff_of_not_overlong ha' hlong]
  · obtain hnames | ⟨base, n, hn, hw, hlt⟩ := (rejects_iff ha).1 h
    · exact absurd ((rejects_iff ha').2 (.inl hnames)) h'
    · refine inNetwork_of_width_ne ha' hn fun hw' ↦ ?_
      exact h' ((rejects_iff ha').2 (.inr ⟨base, n, hn, hw', hlt⟩))

/-- A short network with 33 bits, which only short addresses reject. -/
theorem rejects_alike_iff_short :
    Rejects "10.0.0.0/33" "1.2.3.4" ∧ ¬ Rejects "10.0.0.0/33" "::1" ∧
      inNetwork "::1" "10.0.0.0/33" = .ok (.boolean false) := by
  have hv4 : Address.ofText? (trim "1.2.3.4") = some (.v4 0x01020304#32) := by decide
  have hv6 : Address.ofText? (trim "::1") = some (.v6 1#128) := by decide
  have hreject : Rejects "10.0.0.0/33" "1.2.3.4" :=
    (rejects_iff hv4).2 (.inr ⟨_, _, Block.names_33, rfl, by decide⟩)
  obtain ⟨hiff, hfalse⟩ := @rejects_alike_iff "10.0.0.0/33" _ _ _ _ hv4 hv6
  have hnot : ¬ Rejects "10.0.0.0/33" "::1" := by
    intro h
    obtain hw | hlong := hiff.1 ⟨fun _ ↦ h, fun _ ↦ hreject⟩
    · cases hw
    · exact hlong Block.overlong_33
  exact ⟨hreject, hnot, hfalse hreject hnot⟩

/-- **Whether a network is rejected depends on the address that asks.** -/
theorem not_rejects_alike : ¬ ∀ (network address address' : String) (a a' : Address),
    Address.ofText? (trim address) = some a → Address.ofText? (trim address') = some a' →
      (Rejects network address ↔ Rejects network address') := by
  intro h
  have hv4 : Address.ofText? (trim "1.2.3.4") = some (.v4 0x01020304#32) := by decide
  have hv6 : Address.ofText? (trim "::1") = some (.v6 1#128) := by decide
  exact not_rejects_iff_of_overlong hv4 hv6 (by decide) Block.overlong_33 (h _ _ _ _ _ hv4 hv6)

end Builtin

end RequestCondition

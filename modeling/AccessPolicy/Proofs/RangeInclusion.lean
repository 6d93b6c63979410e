import AccessPolicy.Proofs.RangeArithmetic

/-!
The tests of address ranges by the members of the ranges. The shifted numbers of two
addresses are equal exactly if their leading bits are. A range that covers only members
of another one has at least as long a prefix: otherwise the first bit that it leaves
open could be flipped within it, and not within the other.
-/

namespace AccessPolicy
namespace Address

/-- 127.0.0.0/8 and ::1. -/
def IsLoopback : Address → Prop
  | .v4 bits => bits.toNat / 2 ^ 24 = 127
  | .v6 bits => bits.toNat = 1

/-- 224.0.0.0/4, of which the first octets are 224 to 239, and ff00::/8. -/
def IsMulticast : Address → Prop
  | .v4 bits => 224 ≤ bits.toNat / 2 ^ 24 ∧ bits.toNat / 2 ^ 24 ≤ 239
  | .v6 bits => bits.toNat / 2 ^ 120 = 0xff

/-- The address with the bit at the position turned. -/
def flip (i : Nat) : Address → Address
  | .v4 bits => .v4 (bits ^^^ .twoPow 32 (31 - i))
  | .v6 bits => .v6 (bits ^^^ .twoPow 128 (127 - i))

theorem isV4_flip (i : Nat) (a : Address) : (a.flip i).isV4 = a.isV4 := by
  cases a <;> rfl

theorem bit_flip {a : Address} {i : Nat} (hi : i < a.width) (j : Nat) :
    (a.flip i).bit j = (a.bit j ^^ decide (j = i)) := by
  cases a with
  | v4 bits | v6 bits =>
      rw [width] at hi
      rw [flip, bit, BitVec.getMsbD_xor, BitVec.getMsbD_twoPow]
      refine congrArg (bits.getMsbD j ^^ ·) ?_
      rw [← Bool.decide_and]
      exact decide_eq_decide.mpr (by omega)

theorem bit_eq_testBit {a : Address} {i : Nat} (hi : i < a.width) :
    a.bit i = a.toNat.testBit (a.width - 1 - i) := by
  cases a with
  | v4 bits | v6 bits =>
      rw [width] at hi
      rw [bit, BitVec.getMsbD_eq_getLsbD, decide_eq_true hi, Bool.true_and]
      rfl

theorem testBit_eq_false {a : Address} {j : Nat} (hj : a.width ≤ j) : a.toNat.testBit j = false :=
  Nat.testBit_lt_two_pow
    (Nat.lt_of_lt_of_le (IpRange.toNat_lt a) (Nat.pow_le_pow_right Nat.two_pos hj))

theorem shiftRight_eq_iff {a b : Address} (hwidth : a.width = b.width) {length : Nat}
    (h : length ≤ b.width) :
    a.toNat >>> (a.width - length) = b.toNat >>> (b.width - length) ↔
      ∀ i < length, a.bit i = b.bit i := by
  constructor
  · intro hshift i hi
    have hplace : b.width - 1 - i = b.width - length + (length - 1 - i) := by omega
    rw [bit_eq_testBit (by omega), bit_eq_testBit (by omega), hwidth, hplace,
      ← Nat.testBit_shiftRight, ← Nat.testBit_shiftRight, ← hshift, hwidth]
  · intro hbits
    refine Nat.eq_of_testBit_eq fun j => ?_
    rw [Nat.testBit_shiftRight, Nat.testBit_shiftRight]
    by_cases hj : j < length
    · have hbit := hbits (length - 1 - j) (by omega)
      rw [bit_eq_testBit (by omega), bit_eq_testBit (by omega), hwidth] at hbit
      have hplace : b.width - 1 - (length - 1 - j) = b.width - length + j := by omega
      rw [hplace] at hbit
      rw [hwidth, hbit]
    · rw [testBit_eq_false (by omega), testBit_eq_false (by omega)]

end Address

namespace IpRange

open Address (isV4_flip bit_flip shiftRight_eq_iff)

theorem mem_iff {a : Address} {r : IpRange} :
    a ∈ r ↔ a.isV4 = r.address.isV4 ∧ ∀ i < r.prefixLength.toNat, a.bit i = r.address.bit i :=
  Iff.rfl

theorem address_mem (r : IpRange) : r.address ∈ r := ⟨rfl, fun _ _ => rfl⟩

/-- One length test and one comparison ask whether the second range has the address of
the first one, and no longer a prefix. -/
theorem isInRange_iff (r : IpRange) {s : IpRange} (hs : s.WellFormed) :
    r.isInRange s = true ↔
      s.prefixLength.toNat ≤ r.prefixLength.toNat ∧ r.address ∈ s := by
  rw [isInRange, Bool.and_eq_true, Bool.and_eq_true, beq_iff_eq, beq_iff_eq, decide_eq_true_eq,
    UInt8.le_iff_toNat_le, mem_iff, and_assoc, and_left_comm]
  refine and_congr_right fun _ => and_congr_right fun hfamily => ?_
  have hwidth : r.address.width = s.address.width := width_eq_of_isV4_eq hfamily
  rw [network_of_le (hwidth ▸ hs), network_of_le hs]
  exact shiftRight_eq_iff hwidth hs

/-- A member may have either bit at a place after the prefix. -/
theorem flip_mem {r : IpRange} {i : Nat} (hlength : r.prefixLength.toNat ≤ i)
    (hi : i < r.address.width) : r.address.flip i ∈ r := by
  refine ⟨isV4_flip i r.address, fun j hj => ?_⟩
  rw [bit_flip hi, decide_eq_false (by omega), Bool.xor_false]

theorem prefixLength_le_of_forall_mem {r s : IpRange} (hs : s.WellFormed)
    (h : ∀ a ∈ r, a ∈ s) : s.prefixLength.toNat ≤ r.prefixLength.toNat := by
  obtain ⟨hfamily, hbits⟩ := h r.address r.address_mem
  have hwidth : r.address.width = s.address.width := width_eq_of_isV4_eq hfamily
  refine Nat.le_of_not_lt fun hlt => ?_
  have hplace : r.prefixLength.toNat < r.address.width := hwidth ▸ Nat.lt_of_lt_of_le hlt hs
  obtain ⟨-, hflipped⟩ := h _ (flip_mem (Nat.le_refl _) hplace)
  have hbit := hflipped _ hlt
  rw [bit_flip hplace, ← hbits _ hlt] at hbit
  simp at hbit

theorem isInRange_iff_forall_mem (r : IpRange) {s : IpRange} (hs : s.WellFormed) :
    r.isInRange s = true ↔ ∀ a ∈ r, a ∈ s := by
  rw [isInRange_iff r hs]
  constructor
  · rintro ⟨hlength, hfamily, hbits⟩ a ⟨hfamily', hbits'⟩
    exact ⟨hfamily'.trans hfamily,
      fun i hi => (hbits' i (Nat.lt_of_lt_of_le hi hlength)).trans (hbits i hi)⟩
  · intro h
    exact ⟨prefixLength_le_of_forall_mem hs h, h r.address r.address_mem⟩

/-- Ranges of different families share no member, so that the members of a range are
all in the one or all in the other. -/
theorem isInEither_iff (r : IpRange) {s t : IpRange} (hs : s.WellFormed) (ht : t.WellFormed)
    (hfamily : s.isV4 ≠ t.isV4) :
    (r.isInRange s || r.isInRange t) = true ↔ ∀ a ∈ r, a ∈ s ∨ a ∈ t := by
  rw [Bool.or_eq_true, isInRange_iff_forall_mem r hs, isInRange_iff_forall_mem r ht]
  constructor
  · rintro (h | h) a ha
    · exact .inl (h a ha)
    · exact .inr (h a ha)
  · intro h
    rcases h r.address r.address_mem with hmem | hmem
    · refine .inl fun a ha => (h a ha).resolve_right fun hother => hfamily ?_
      exact hmem.1.symm.trans (ha.1.symm.trans hother.1)
    · refine .inr fun a ha => (h a ha).resolve_left fun hother => hfamily ?_
      exact (hmem.1.symm.trans (ha.1.symm.trans hother.1)).symm

theorem mem_iff_div {a : Address} {s : IpRange} (hs : s.WellFormed) (shift : Nat)
    (hshift : s.address.width - s.prefixLength.toNat = shift) :
    a ∈ s ↔ a.isV4 = s.isV4 ∧ a.toNat / 2 ^ shift = s.address.toNat / 2 ^ shift := by
  rw [mem_iff, ← Nat.shiftRight_eq_div_pow, ← Nat.shiftRight_eq_div_pow]
  refine and_congr_right fun hfamily => ?_
  have hwidth : a.width = s.address.width := width_eq_of_isV4_eq (r := single a) hfamily
  rw [← shiftRight_eq_iff hwidth hs, hwidth, hshift]

theorem mem_loopback_iff (a : Address) : a ∈ loopbackV4 ∨ a ∈ loopbackV6 ↔ a.IsLoopback := by
  have hv4 : loopbackV4.address.toNat / 2 ^ 24 = 127 := rfl
  have hv6 : loopbackV6.address.toNat / 2 ^ 0 = 1 := rfl
  rw [mem_iff_div (by decide) 24 rfl, mem_iff_div (by decide) 0 rfl, hv4, hv6]
  cases a with
  | v4 bits | v6 bits =>
      simp [Address.isV4, isV4, loopbackV4, loopbackV6, Address.toNat, Address.IsLoopback]

theorem mem_multicast_iff (a : Address) :
    a ∈ multicastV4 ∨ a ∈ multicastV6 ↔ a.IsMulticast := by
  have hv4 : multicastV4.address.toNat / 2 ^ 28 = 14 := rfl
  have hv6 : multicastV6.address.toNat / 2 ^ 120 = 0xff := rfl
  rw [mem_iff_div (by decide) 28 rfl, mem_iff_div (by decide) 120 rfl, hv4, hv6]
  cases a with
  | v4 bits =>
      -- The octets from 224 to 239 are those that start with the four bits of 14.
      have hoctet : bits.toNat / 2 ^ 28 = 14 ↔
          224 ≤ bits.toNat / 2 ^ 24 ∧ bits.toNat / 2 ^ 24 ≤ 239 := by omega
      simpa [Address.isV4, isV4, multicastV4, multicastV6, Address.toNat, Address.IsMulticast]
        using hoctet
  | v6 bits => simp [Address.isV4, isV4, multicastV4, multicastV6, Address.toNat, Address.IsMulticast]

/-- The tests of ranges by their members. One range is in another one exactly if they are
of one family and the other one has all its members, which makes the test reflexive and
transitive; in words the test has this result. A range is loopback or multicast exactly
if all its members are. -/
theorem tests_by_members {r s : IpRange} (hr : r.WellFormed) (hs : s.WellFormed) :
    (r.isInRange s = true ↔ r.isV4 = s.isV4 ∧ ∀ a ∈ r, a ∈ s) ∧
    r.isInRangeWord? s = some (r.isInRange s) ∧
    r.isInRange r = true ∧
    (∀ t : IpRange, t.WellFormed → r.isInRange s = true → s.isInRange t = true →
      r.isInRange t = true) ∧
    (r.isLoopback = true ↔ ∀ a ∈ r, a.IsLoopback) ∧
    (r.isMulticast = true ↔ ∀ a ∈ r, a.IsMulticast) := by
  refine ⟨?_, isInRangeWord?_eq r hs, ?_, fun t ht hrs hst => ?_, ?_, ?_⟩
  · rw [isInRange_iff_forall_mem r hs]
    exact ⟨fun h => ⟨(h r.address r.address_mem).1, h⟩, And.right⟩
  · exact (isInRange_iff_forall_mem r hr).mpr fun _ ha => ha
  · rw [isInRange_iff_forall_mem _ hs] at hrs
    rw [isInRange_iff_forall_mem _ ht] at hst ⊢
    exact fun a ha => hst a (hrs a ha)
  · rw [isLoopback, isInEither_iff r (by decide) (by decide) (by decide)]
    exact forall₂_congr fun a _ => mem_loopback_iff a
  · rw [isMulticast, isInEither_iff r (by decide) (by decide) (by decide)]
    exact forall₂_congr fun a _ => mem_multicast_iff a

/-- The upper half of 127.0.0.0/8, given by an address with bits after the prefix. -/
theorem tests_by_members_half :
    let r : IpRange := ⟨.v4 0x7f8000ff, 9⟩
    r.WellFormed ∧ loopbackV4.WellFormed ∧
      (r.isInRange loopbackV4 = true ↔ r.isV4 = loopbackV4.isV4 ∧ ∀ a ∈ r, a ∈ loopbackV4) ∧
      r.isInRangeWord? loopbackV4 = some (r.isInRange loopbackV4) ∧ r.isInRange r = true ∧
      (∀ t : IpRange, t.WellFormed → r.isInRange loopbackV4 = true →
        loopbackV4.isInRange t = true → r.isInRange t = true) ∧
      (r.isLoopback = true ↔ ∀ a ∈ r, a.IsLoopback) ∧
      (r.isMulticast = true ↔ ∀ a ∈ r, a.IsMulticast) :=
  ⟨by decide, by decide, tests_by_members (by decide) (by decide)⟩

end IpRange
end AccessPolicy

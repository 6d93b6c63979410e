import Mathlib.Algebra.Group.Nat.Defs
import AccessPolicy.ExtensionFunction
import AccessPolicy.Value.WellFormed

/-!
The tests of address ranges in checked machine words. The bits of an address stand in a
word of 128 bits and the lengths in bytes, so that a difference of lengths may
underflow and a shift may be as wide as the word; a test that does either has no
result. Where the prefix of the range that is tested against fits into its
address, neither happens, and the result is that of the test which wraps around.
-/

namespace AccessPolicy
namespace IpRange

instance (r : IpRange) : Decidable r.WellFormed := inferInstanceAs (Decidable (_ ≤ _))

/-- The bits of the address, the lowest last. -/
def word (r : IpRange) : BitVec 128 := BitVec.ofNat 128 r.address.toNat

/-- The difference of two bytes, unless it underflows. -/
def subByte? (a b : UInt8) : Option UInt8 :=
  if b ≤ a then some (a - b) else none

/-- A shift to the right, unless it is as wide as the word. -/
def shiftWord? (bits : BitVec 128) (amount : UInt8) : Option (BitVec 128) :=
  if amount < 128 then some (bits >>> amount.toNat) else none

/-- The leading bits of a word of which the last `width` bits are an address. -/
def networkWord? (bits : BitVec 128) (width length : UInt8) : Option (BitVec 128) :=
  if length = 0 then some 0
  else do shiftWord? bits (← subByte? width length)

def isInRangeWord? (r s : IpRange) : Option Bool :=
  if r.isV4 ≠ s.isV4 ∨ r.prefixLength < s.prefixLength then some false
  else do
    let a ← networkWord? r.word r.widthByte s.prefixLength
    let b ← networkWord? s.word r.widthByte s.prefixLength
    return a == b

/-- The second range is looked at only if the first one does not hold. -/
def isInEitherWord? (r s t : IpRange) : Option Bool := do
  if ← r.isInRangeWord? s then return true else r.isInRangeWord? t

def isLoopbackWord? (r : IpRange) : Option Bool := r.isInEitherWord? loopbackV4 loopbackV6

def isMulticastWord? (r : IpRange) : Option Bool := r.isInEitherWord? multicastV4 multicastV6

theorem width_le (a : Address) : a.width ≤ 128 := by
  cases a with
  | v4 bits => exact Nat.le_of_ble_eq_true rfl
  | v6 bits => exact Nat.le_refl 128

theorem toNat_lt (a : Address) : a.toNat < 2 ^ a.width := by
  cases a with
  | v4 bits | v6 bits => exact bits.isLt

theorem toNat_lt_word (r : IpRange) : r.address.toNat < 2 ^ 128 :=
  Nat.lt_of_lt_of_le (toNat_lt r.address)
    (Nat.pow_le_pow_right Nat.two_pos (width_le r.address))

theorem widthByte_toNat (r : IpRange) : r.widthByte.toNat = r.address.width := by
  rw [widthByte, UInt8.toNat_ofNat']
  exact Nat.mod_eq_of_lt (Nat.lt_of_le_of_lt (width_le r.address) (by decide))

theorem word_toNat (r : IpRange) : r.word.toNat = r.address.toNat := by
  rw [word, BitVec.toNat_ofNat]
  exact Nat.mod_eq_of_lt r.toNat_lt_word

theorem network_lt_word (r : IpRange) (length : UInt8) : r.network length < 2 ^ 128 := by
  rw [network]
  split
  · decide
  · rw [Nat.shiftRight_eq_div_pow]
    exact Nat.lt_of_le_of_lt (Nat.div_le_self _ _) r.toNat_lt_word

theorem le_widthByte_iff {r : IpRange} {length : UInt8} :
    length ≤ r.widthByte ↔ length.toNat ≤ r.address.width := by
  rw [UInt8.le_iff_toNat_le, widthByte_toNat]

/-- A length that fits keeps the difference from underflow. -/
theorem toNat_widthByte_sub {r : IpRange} {length : UInt8} (h : length.toNat ≤ r.address.width) :
    (r.widthByte - length).toNat = r.address.width - length.toNat := by
  rw [UInt8.toNat_sub_of_le _ _ (le_widthByte_iff.mpr h), widthByte_toNat]

/-- The shift is within the word, since nothing is shifted for the length zero. -/
theorem widthByte_sub_lt {r : IpRange} {length : UInt8} (hpos : length ≠ 0)
    (h : length.toNat ≤ r.address.width) : (r.widthByte - length).toNat < 128 := by
  have hne : length.toNat ≠ 0 := fun hzero => hpos (UInt8.toNat_inj.mp hzero)
  have hwidth := width_le r.address
  rw [toNat_widthByte_sub h]
  omega

theorem network_of_le {r : IpRange} {length : UInt8} (h : length.toNat ≤ r.address.width) :
    r.network length = r.address.toNat >>> (r.address.width - length.toNat) := by
  rw [network]
  split
  · next hzero =>
    rw [hzero, UInt8.toNat_zero, Nat.sub_zero, Nat.shiftRight_eq_div_pow]
    exact (Nat.div_eq_of_lt (toNat_lt r.address)).symm
  · next hpos => rw [Nat.mod_eq_of_lt (widthByte_sub_lt hpos h), toNat_widthByte_sub h]

theorem networkWord?_eq (r : IpRange) {length : UInt8} (h : length.toNat ≤ r.address.width) :
    networkWord? r.word r.widthByte length = some (BitVec.ofNat 128 (r.network length)) := by
  rw [networkWord?]
  split
  · next hzero =>
    rw [hzero]
    rfl
  · next hpos =>
    have hlt : r.widthByte - length < 128 :=
      UInt8.lt_iff_toNat_lt.mpr (widthByte_sub_lt hpos h)
    rw [subByte?, if_pos (le_widthByte_iff.mpr h), Option.bind_eq_bind, Option.bind_some,
      shiftWord?, if_pos hlt]
    refine congrArg some (BitVec.eq_of_toNat_eq ?_)
    rw [BitVec.toNat_ushiftRight, word_toNat, toNat_widthByte_sub h, BitVec.toNat_ofNat,
      Nat.mod_eq_of_lt (r.network_lt_word length), network_of_le h]

theorem width_eq_of_isV4_eq {r s : IpRange} (h : r.isV4 = s.isV4) :
    r.address.width = s.address.width := by
  obtain ⟨⟨_⟩ | ⟨_⟩, _⟩ := r <;> obtain ⟨⟨_⟩ | ⟨_⟩, _⟩ := s <;> first | rfl | cases h

/-- Only the prefix of the second range has to fit. -/
theorem isInRangeWord?_eq (r : IpRange) {s : IpRange} (hs : s.WellFormed) :
    r.isInRangeWord? s = some (r.isInRange s) := by
  rw [isInRangeWord?, isInRange]
  split
  · next h =>
    rcases h with h | h
    · simp [h]
    · simp [UInt8.not_le.mpr h]
  · next h =>
    obtain ⟨hfamily, hprefix⟩ := not_or.mp h
    have hfamily : r.isV4 = s.isV4 := Decidable.of_not_not hfamily
    have hwidth := width_eq_of_isV4_eq hfamily
    have hbyte : r.widthByte = s.widthByte := congrArg UInt8.ofNat hwidth
    have hr : s.prefixLength.toNat ≤ r.address.width := hwidth ▸ hs
    have hwords : (BitVec.ofNat 128 (r.network s.prefixLength) ==
        BitVec.ofNat 128 (s.network s.prefixLength)) =
          (r.network s.prefixLength == s.network s.prefixLength) := by
      rw [Bool.eq_iff_iff, beq_iff_eq, beq_iff_eq, ← BitVec.toNat_inj, BitVec.toNat_ofNat,
        BitVec.toNat_ofNat, Nat.mod_eq_of_lt (r.network_lt_word _),
        Nat.mod_eq_of_lt (s.network_lt_word _)]
    rw [networkWord?_eq r hr, hbyte, networkWord?_eq s hs]
    simp [hwords, hfamily, UInt8.not_lt.mp hprefix]

theorem isInEitherWord?_eq (r : IpRange) {s t : IpRange} (hs : s.WellFormed)
    (ht : t.WellFormed) : r.isInEitherWord? s t = some (r.isInRange s || r.isInRange t) := by
  rw [isInEitherWord?, isInRangeWord?_eq r hs, isInRangeWord?_eq r ht]
  cases r.isInRange s <;> rfl

theorem isLoopbackWord?_eq (r : IpRange) : r.isLoopbackWord? = some r.isLoopback :=
  isInEitherWord?_eq r (by decide) (by decide)

theorem isMulticastWord?_eq (r : IpRange) : r.isMulticastWord? = some r.isMulticast :=
  isInEitherWord?_eq r (by decide) (by decide)

theorem wellFormed_of_prefix {a : Address} {length : Nat} (h : length ≤ a.width) :
    (IpRange.mk a (UInt8.ofNat length)).WellFormed := by
  rw [WellFormed, UInt8.toNat_ofNat']
  exact Nat.le_trans (Nat.mod_le _ _) h

/-- A range that is read from a text has a prefix that fits. -/
theorem ofText_wellFormed {text : String} {r : IpRange} (h : ofText text = .ok r) :
    r.WellFormed := by
  rw [ofText] at h
  cases hb : Text.breakFirst? ['/'] text.toList with
  | none =>
      rw [hb] at h
      dsimp only at h
      split at h
      · cases h
      · cases h
        exact wellFormed_of_prefix (Nat.le_refl _)
  | some parts =>
      rw [hb] at h
      dsimp only at h
      split at h
      · cases h
      · split at h
        · cases h
        · split at h
          · cases h
          · next hle =>
            cases h
            exact wellFormed_of_prefix (Nat.le_of_not_lt hle)

end IpRange

namespace ExtensionFunction

/-- A call with the tests of ranges in machine words. -/
def callWord? : ExtensionFunction → List Value → Option (Except EvalError Value)
  | .isInRange, [.ip r, .ip s] => (.ok <| .bool ·) <$> r.isInRangeWord? s
  | .isLoopback, [.ip r] => (.ok <| .bool ·) <$> r.isLoopbackWord?
  | .isMulticast, [.ip r] => (.ok <| .bool ·) <$> r.isMulticastWord?
  | f, args => some (f.call args)

theorem callWord?_eq (f : ExtensionFunction) {args : List Value}
    (h : ∀ v ∈ args, v.WellFormed) : f.callWord? args = some (f.call args) := by
  rw [callWord?.eq_def]
  split
  · next r s =>
    have hs : (Value.ip s).WellFormed := h _ (by simp)
    rw [Value.WellFormed] at hs
    rw [IpRange.isInRangeWord?_eq r hs]
    rfl
  · next r =>
    rw [IpRange.isLoopbackWord?_eq]
    rfl
  · next r =>
    rw [IpRange.isMulticastWord?_eq]
    rfl
  · rfl

end ExtensionFunction
end AccessPolicy

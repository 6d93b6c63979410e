import AccessPolicy.EntityUid
import Mathlib.Algebra.Group.Nat.Defs
import Mathlib.Tactic.SplitIfs

/-!
Texts in the order of their bytes. A character is encoded as the digits of its code
point to the base of 64, after a first byte that has what is left of the code point and
is larger the more digits follow it. So a smaller character has a smaller encoding,
whatever comes after it, and the order of bytes is that of code points.
-/

namespace AccessPolicy
namespace Text

open String (utf8EncodeChar)

/-- A number in `count` digits to the base of 64, after a byte with what is left of it. -/
def digits (lead : Nat) : Nat → Nat → List UInt8
  | 0, n => [UInt8.ofNat (n + lead)]
  | count + 1, n => digits lead count (n / 64) ++ [UInt8.ofNat (n % 64 + 0x80)]

theorem byte_lt {m n : Nat} (h : m < n) (hn : n < 256) : UInt8.ofNat m < UInt8.ofNat n :=
  (UInt8.ofNat_lt_iff_lt (Nat.lt_trans h hn) hn).mpr h

theorem digits_append_lt {lead count m n : Nat} (h : m < n) (hlead : n / 64 ^ count + lead < 256)
    (bs cs : List UInt8) : digits lead count m ++ bs < digits lead count n ++ cs := by
  induction count generalizing m n bs cs with
  | zero =>
      rw [Nat.pow_zero, Nat.div_one] at hlead
      exact .rel (byte_lt (Nat.add_lt_add_right h lead) hlead)
  | succ count ih =>
      rw [digits, digits, List.append_assoc, List.append_assoc]
      -- the numbers differ before their last digits, or in these only
      have hle : m / 64 ≤ n / 64 := Nat.div_le_div_right (Nat.le_of_lt h)
      rcases Nat.lt_or_eq_of_le hle with hq | hq
      · refine ih hq ?_ _ _
        rwa [Nat.div_div_eq_div_mul, ← Nat.pow_succ']
      · rw [hq]
        exact List.append_left_lt (.rel (byte_lt (by omega) (by omega)))

theorem exists_digits_eq_cons (lead count n : Nat) :
    ∃ rest, digits lead count n = UInt8.ofNat (n / 64 ^ count + lead) :: rest := by
  induction count generalizing n with
  | zero => exact ⟨[], by rw [digits, Nat.pow_zero, Nat.div_one]⟩
  | succ count ih =>
      obtain ⟨rest, hrest⟩ := ih (n / 64)
      rw [digits, hrest, Nat.div_div_eq_div_mul, ← Nat.pow_succ']
      exact ⟨_, rfl⟩

/-- How many digits follow the first byte. -/
def digitCount (n : Nat) : Nat :=
  if n ≤ 0x7f then 0 else if n ≤ 0x7ff then 1 else if n ≤ 0xffff then 2 else 3

/-- The least first byte that announces so many digits. -/
def leadOf : Nat → Nat
  | 0 => 0
  | 1 => 0xc0
  | 2 => 0xe0
  | _ => 0xf0

theorem toNat_val_lt (c : Char) : c.val.toNat < 0x110000 := by
  have hvalid : c.val.toNat < 0xd800 ∨ 0xdfff < c.val.toNat ∧ c.val.toNat < 0x110000 := c.valid
  omega

theorem utf8EncodeChar_eq_digits (c : Char) :
    utf8EncodeChar c =
      digits (leadOf (digitCount c.val.toNat)) (digitCount c.val.toNat) c.val.toNat := by
  have hmax := toNat_val_lt c
  rw [utf8EncodeChar]
  generalize c.val.toNat = n at *
  have htwo : n / 4096 = n / 64 / 64 := by omega
  have hthree : n / 262144 = n / 64 / 64 / 64 := by omega
  rw [htwo, hthree, digitCount]
  split_ifs
  · rfl
  · rw [Nat.mod_eq_of_lt (by omega : n / 64 < 32)]
    rfl
  · rw [Nat.mod_eq_of_lt (by omega : n / 64 / 64 < 16)]
    rfl
  · rw [Nat.mod_eq_of_lt (by omega : n / 64 / 64 / 64 < 8)]
    rfl

theorem digitCount_mono {m n : Nat} (h : m < n) : digitCount m ≤ digitCount n := by
  rw [digitCount, digitCount]
  split_ifs <;> omega

/-- The number in the first byte. -/
def firstOf (n : Nat) : Nat :=
  n / 64 ^ digitCount n + leadOf (digitCount n)

theorem firstOf_lt_firstOf {m n : Nat} (h : digitCount m < digitCount n) (hn : n < 0x110000) :
    firstOf m < firstOf n := by
  rw [firstOf, firstOf]
  rw [digitCount, digitCount] at *
  split_ifs at * <;> simp only [leadOf] <;> omega

theorem firstOf_lt {n : Nat} (hn : n < 0x110000) : firstOf n < 256 := by
  rw [firstOf, digitCount]
  split_ifs <;> simp only [leadOf] <;> omega

theorem utf8EncodeChar_append_lt {c d : Char} (h : c < d) (bs cs : List UInt8) :
    utf8EncodeChar c ++ bs < utf8EncodeChar d ++ cs := by
  have hlt : c.val.toNat < d.val.toNat := h
  have hfits : firstOf d.val.toNat < 256 := firstOf_lt (toNat_val_lt d)
  rw [utf8EncodeChar_eq_digits, utf8EncodeChar_eq_digits]
  rcases Nat.lt_or_eq_of_le (digitCount_mono hlt) with hcount | hcount
  · obtain ⟨bs', hbs⟩ := exists_digits_eq_cons _ (digitCount c.val.toNat) c.val.toNat
    obtain ⟨cs', hcs⟩ := exists_digits_eq_cons _ (digitCount d.val.toNat) d.val.toNat
    rw [hbs, hcs]
    exact .rel (byte_lt (firstOf_lt_firstOf hcount (toNat_val_lt d)) hfits)
  · rw [hcount]
    exact digits_append_lt hlt hfits bs cs

theorem flatMap_utf8EncodeChar_lt {cs ds : List Char} (h : cs < ds) :
    cs.flatMap utf8EncodeChar < ds.flatMap utf8EncodeChar := by
  induction h with
  | nil =>
      rw [List.flatMap_nil, List.flatMap_cons, utf8EncodeChar_eq_digits]
      obtain ⟨rest, hrest⟩ := exists_digits_eq_cons _ _ _
      rw [hrest]
      exact .nil
  | cons _ ih => exact List.append_left_lt ih
  | rel h => exact utf8EncodeChar_append_lt h _ _

/-- The bytes that encode a text. -/
def bytes (text : String) : List UInt8 :=
  text.toUTF8.data.toList

theorem bytes_eq_flatMap (text : String) : bytes text = text.toList.flatMap utf8EncodeChar := by
  rw [bytes, String.toUTF8_eq_toByteArray, ← String.utf8Encode_toList, List.utf8Encode,
    List.toList_data_toByteArray]

theorem bytes_lt_bytes {s t : String} (h : s < t) : bytes s < bytes t := by
  rw [bytes_eq_flatMap, bytes_eq_flatMap]
  exact flatMap_utf8EncodeChar_lt h

theorem bytes_inj {s t : String} : bytes s = bytes t ↔ s = t := by
  rw [bytes, bytes, Array.toList_inj, ByteArray.ext_iff.symm, String.toUTF8_eq_toByteArray]
  exact String.toByteArray_inj

/-- Texts are ordered by code point as their bytes are ordered. -/
theorem bytes_lt_iff {s t : String} : bytes s < bytes t ↔ s < t := by
  refine ⟨fun h => Decidable.byContradiction fun hst => ?_, bytes_lt_bytes⟩
  by_cases heq : s = t
  · exact List.lt_irrefl _ (heq ▸ h)
  · exact List.lt_asymm h (bytes_lt_bytes (lt_of_not_lt hst heq))

end Text

namespace EntityUid

/-- The order of the bytes of the type name and then of those of the identifier. -/
def BytesBefore (u v : EntityUid) : Prop :=
  Text.bytes u.type.name < Text.bytes v.type.name ∨
    Text.bytes u.type.name = Text.bytes v.type.name ∧ Text.bytes u.id < Text.bytes v.id

instance (u v : EntityUid) : Decidable (u.BytesBefore v) :=
  inferInstanceAs (Decidable (_ ∨ _ ∧ _))

theorem bytesBefore_iff_lt {u v : EntityUid} : u.BytesBefore v ↔ u < v := by
  rw [BytesBefore, lt_def, Text.bytes_lt_iff, Text.bytes_inj, Text.bytes_lt_iff]

end EntityUid
end AccessPolicy

import AccessPolicy.Proofs.AddressNotation
import AccessPolicy.Proofs.NumeralReading
import AccessPolicy.Proofs.RangeArithmetic

/-!
The literals of address ranges: an address, or an address, a slash and the length of
the prefix. No address has a slash in it, so that the first slash of a text is where
the address ends. The text of a range is a literal and denotes the range, unless its
prefix is longer than its address.
-/

namespace AccessPolicy
namespace Address

section

variable {c : Char} (hhex : Text.hexDigit? c = none) (hpoint : c ≠ '.')
include hhex

theorem isDigit_eq_false_of_hexDigit? : ¬ c.isDigit := by
  intro hdigit
  rw [Text.hexDigit?, if_pos hdigit] at hhex
  cases hhex

include hpoint

theorem groupsOfPieces?_of_mem {dots : Bool} {ps : List (List Char)} {p : List Char}
    (hp : p ∈ ps) (h : c ∈ p) : groupsOfPieces? dots ps = none := by
  have hdigit := isDigit_eq_false_of_hexDigit? hhex
  induction ps with
  | nil => cases hp
  | cons q qs ih =>
      cases qs with
      | nil =>
          obtain rfl := List.mem_singleton.mp hp
          simp [groupsOfPieces?, group?_of_mem h hhex, dotted?_of_mem h hdigit hpoint]
      | cons r rs =>
          rw [groupsOfPieces?]
          rcases List.mem_cons.mp hp with rfl | hp
          · rw [group?_of_mem h hhex]
            rfl
          · rw [ih hp]
            cases group? q <;> rfl
          · simp

variable (hcolon : c ≠ ':')
include hcolon

theorem groupsOfText?_of_mem {dots : Bool} {text : List Char} (h : c ∈ text) :
    groupsOfText? dots text = none := by
  obtain ⟨p, hp, hc⟩ := Text.exists_mem_pieces hcolon h
  rw [groupsOfText?, if_neg (List.ne_nil_of_mem h), groupsOfPieces?_of_mem hhex hpoint hp hc]

theorem eightGroups?_of_mem {text : List Char} (h : c ∈ text) : eightGroups? text = none := by
  rw [eightGroups?]
  split
  · rw [groupsOfText?_of_mem hhex hpoint hcolon h]
    rfl
  · next before after hbreak =>
    rw [Text.eq_append_of_breakFirst? hbreak] at h
    rcases List.mem_append.mp h with h | h
    · rw [groupsOfText?_of_mem hhex hpoint hcolon h]
      rfl
    · have hafter : c ∈ after := by simpa [hcolon] using h
      rw [groupsOfText?_of_mem hhex hpoint hcolon hafter]
      cases groupsOfText? false before <;> rfl

theorem ofChars?_of_mem {text : List Char} (h : c ∈ text) : ofChars? text = none := by
  rw [ofChars?, dotted?_of_mem h (isDigit_eq_false_of_hexDigit? hhex) hpoint,
    eightGroups?_of_mem hhex hpoint hcolon h]
  rfl

end

theorem slash_not_mem {text : List Char} {a : Address} (h : ofChars? text = some a) :
    '/' ∉ text := by
  intro hslash
  rw [ofChars?_of_mem rfl (by decide) (by decide) hslash] at h
  cases h

end Address

namespace IpRange

open Text (Numeral)

/-- An address, or an address, a slash and one to three digits for a prefix that is not
longer than the address. -/
inductive Spells : List Char → IpRange → Prop where
  | single {text : List Char} {a : Address} (ha : Address.ofChars? text = some a) :
      Spells text (single a)
  | withPrefix {text digits : List Char} {a : Address} {count length : Nat}
      (ha : Address.ofChars? text = some a) (hdigits : Numeral count length digits)
      (hcount : 1 ≤ count ∧ count ≤ 3) (hlength : length ≤ a.width) :
      Spells (text ++ '/' :: digits) ⟨a, UInt8.ofNat length⟩

theorem prefixLength?_eq_some_iff {text : List Char} {length : Nat} :
    prefixLength? text = some length ↔
      ∃ count, Numeral count length text ∧ (1 ≤ count ∧ count ≤ 3) ∧ length < 256 := by
  rw [prefixLength?]
  constructor
  · intro h
    split at h
    · next hshape =>
      obtain ⟨hne, hle, hdigits, hlt⟩ := hshape
      cases h
      exact ⟨text.length, ⟨rfl, List.all_eq_true.mp hdigits, rfl⟩,
        ⟨List.length_pos_iff.mpr hne, hle⟩, hlt⟩
    · cases h
  · rintro ⟨count, ⟨rfl, hdigits, rfl⟩, ⟨hpos, hle⟩, hlt⟩
    exact if_pos ⟨List.length_pos_iff.mp hpos, hle, List.all_eq_true.mpr hdigits, hlt⟩

theorem spells_of_ofText {text : String} {r : IpRange} (h : ofText text = .ok r) :
    Spells text.toList r := by
  rw [ofText] at h
  generalize text.toList = chars at h ⊢
  cases hbreak : Text.breakFirst? ['/'] chars with
  | none =>
      rw [hbreak] at h
      dsimp only at h
      split at h
      · cases h
      · next a ha =>
        cases h
        exact .single ha
  | some parts =>
      rw [hbreak] at h
      dsimp only at h
      split at h
      · cases h
      · next a ha =>
        split at h
        · cases h
        · next length hlength =>
          split at h
          · cases h
          · next hle =>
            cases h
            obtain ⟨count, hdigits, hcount, -⟩ := prefixLength?_eq_some_iff.mp hlength
            rw [Text.eq_append_of_breakFirst? hbreak]
            exact .withPrefix ha hdigits hcount (Nat.le_of_not_lt hle)

theorem ofText_of_spells {text : String} {r : IpRange} (h : Spells text.toList r) :
    ofText text = .ok r := by
  rw [ofText]
  generalize text.toList = chars at h ⊢
  cases h with
  | single ha => simp only [Text.breakFirst?_eq_none (Address.slash_not_mem ha), ha]
  | @withPrefix _ digits a count length ha hdigits hcount hlength =>
      have hlt : length < 256 :=
        Nat.lt_of_le_of_lt (Nat.le_trans hlength (width_le a)) (by decide)
      have hread := prefixLength?_eq_some_iff.mpr ⟨count, hdigits, hcount, hlt⟩
      simp only [Text.breakFirst?_single (Address.slash_not_mem ha), ha, hread,
        if_neg (Nat.not_lt.mpr hlength)]

theorem spells_text {r : IpRange} (h : r.WellFormed) : Spells r.text.toList r := by
  obtain ⟨a, prefixLength⟩ := r
  have ha : Address.ofChars? a.text.toList = some a := Address.ofText?_text a
  rw [text]
  dsimp only
  split
  · next hwhole =>
    have hsingle : IpRange.mk a prefixLength = single a := by
      rw [single, ← hwhole, UInt8.ofNat_toNat]
    rw [hsingle]
    exact .single ha
  · have hle : prefixLength.toNat ≤ a.width := h
    obtain ⟨count, hdigits⟩ := Text.exists_numeral_toDigits prefixLength.toNat
    have hcount : count + 1 ≤ 3 := by
      rw [← hdigits.length_eq, Nat.length_toDigits_le_iff (by decide) (by decide)]
      exact Nat.lt_of_lt_of_le prefixLength.toNat_lt (by decide)
    have htext : (a.text ++ "/" ++ prefixLength.toNat.repr).toList =
        a.text.toList ++ '/' :: Nat.toDigits 10 prefixLength.toNat := by
      simp [Nat.repr]
    have hspells := Spells.withPrefix ha hdigits ⟨Nat.le_add_left 1 count, hcount⟩ hle
    rw [UInt8.ofNat_toNat] at hspells
    rwa [htext]

/-- The reader accepts exactly an address, which is a range with the whole width as its
prefix, and an address with a prefix in up to three digits that is not longer. The text
of a range is read back as the range exactly if its prefix fits into its address. -/
theorem ofText_reads_ranges :
    (∀ text r, ofText text = .ok r ↔ Spells text.toList r) ∧
    ∀ r : IpRange, ofText r.text = .ok r ↔ r.WellFormed :=
  ⟨fun _ _ => ⟨spells_of_ofText, ofText_of_spells⟩, fun _ =>
    ⟨fun h => ofText_wellFormed h, fun h => ofText_of_spells (spells_text h)⟩⟩

end IpRange
end AccessPolicy

import AccessPolicy.Text.Numeral
import Mathlib.Algebra.Group.Nat.Defs
import Mathlib.Data.List.TakeDrop
import Mathlib.Data.List.TakeWhile

/-!
Runs of decimal digits and the readers of them. A reader of a fixed count takes
exactly a numeral of that count from the front of the text, and a number with
zeros in front of it is such a numeral. A run of any length is read up to the
first character that is no digit.
-/

namespace AccessPolicy
namespace Text

/-- A run of `count` decimal digits that denotes `n`. -/
structure Numeral (count n : Nat) (digits : List Char) : Prop where
  length_eq : digits.length = count
  isDigit : ∀ c ∈ digits, c.isDigit
  value_eq : natOfDigits digits = n

theorem ofDigitChars_lt {digits : List Char} (h : ∀ c ∈ digits, c.isDigit) (init : Nat) :
    Nat.ofDigitChars 10 digits init < 10 ^ digits.length * (init + 1) := by
  induction digits generalizing init with
  | nil => simp
  | cons c digits ih =>
      obtain ⟨hc, hdigits⟩ := List.forall_mem_cons.mp h
      have hle : c.toNat - '0'.toNat ≤ 9 :=
        Nat.sub_le_sub_right (Char.isDigit_iff_toNat.mp hc).2 _
      have hih := ih hdigits (10 * init + (c.toNat - '0'.toNat))
      rw [Nat.ofDigitChars_cons, List.length_cons]
      calc
        _ < 10 ^ digits.length * (10 * init + (c.toNat - '0'.toNat) + 1) := hih
        _ ≤ 10 ^ digits.length * (10 * (init + 1)) := Nat.mul_le_mul_left _ (by omega)
        _ = 10 ^ (digits.length + 1) * (init + 1) := by rw [Nat.pow_succ, Nat.mul_assoc]

theorem Numeral.lt {count n : Nat} {digits : List Char} (h : Numeral count n digits) :
    n < 10 ^ count := by
  obtain ⟨rfl, hdigits, rfl⟩ := h
  rw [← Nat.mul_one (10 ^ digits.length)]
  exact ofDigitChars_lt hdigits 0

theorem Numeral.exists_cons {count n : Nat} {digits : List Char}
    (h : Numeral (count + 1) n digits) : ∃ c rest, digits = c :: rest ∧ c.isDigit := by
  cases digits with
  | nil => cases h.length_eq
  | cons c rest => exact ⟨c, rest, rfl, h.isDigit c List.mem_cons_self⟩

theorem exists_numeral_of_ne_nil {digits : List Char} (hne : digits ≠ [])
    (h : ∀ c ∈ digits, c.isDigit) : ∃ count, Numeral (count + 1) (natOfDigits digits) digits := by
  obtain ⟨count, hlength⟩ := Nat.exists_eq_succ_of_ne_zero (mt List.length_eq_zero_iff.mp hne)
  exact ⟨count, hlength, h, rfl⟩

theorem digits?_append {count n : Nat} {digits : List Char} (h : Numeral count n digits)
    (rest : List Char) : digits? count (digits ++ rest) = some (n, rest) := by
  obtain ⟨rfl, hdigits, rfl⟩ := h
  rw [digits?, List.take_left, List.drop_left, if_pos ⟨rfl, List.all_eq_true.mpr hdigits⟩]

theorem digits?_numeral {count n : Nat} {digits : List Char} (h : Numeral count n digits) :
    digits? count digits = some (n, []) := by
  have happend := digits?_append h []
  rwa [List.append_nil] at happend

theorem digits?_eq_some_iff {count n : Nat} {text rest : List Char} :
    digits? count text = some (n, rest) ↔
      ∃ digits, Numeral count n digits ∧ text = digits ++ rest := by
  constructor
  · intro h
    rw [digits?] at h
    split at h
    · next hrun =>
      obtain ⟨hlength, hdigits⟩ := hrun
      rw [Option.some.injEq, Prod.mk.injEq] at h
      exact ⟨text.take count, ⟨hlength, List.all_eq_true.mp hdigits, h.1⟩,
        h.2 ▸ (List.take_append_drop count text).symm⟩
    · cases h
  · rintro ⟨digits, hdigits, rfl⟩
    exact digits?_append hdigits rest

theorem isDigit_of_mem_toDigits {n : Nat} {c : Char} (h : c ∈ Nat.toDigits 10 n) : c.isDigit :=
  Nat.isDigit_of_mem_toDigits (by decide) (by decide) h

theorem exists_numeral_toDigits (n : Nat) :
    ∃ count, Numeral (count + 1) n (Nat.toDigits 10 n) := by
  have hdigits : ∀ c ∈ Nat.toDigits 10 n, c.isDigit := fun _ => isDigit_of_mem_toDigits
  have hnumeral := exists_numeral_of_ne_nil Nat.toDigits_ne_nil hdigits
  rwa [natOfDigits_toDigits] at hnumeral

theorem isDigit_of_mem_paddedDigits {width n : Nat} {c : Char} (h : c ∈ paddedDigits width n) :
    c.isDigit := by
  rw [paddedDigits, List.leftpad, List.mem_append] at h
  rcases h with h | h
  · rw [List.eq_of_mem_replicate h]
    rfl
  · exact isDigit_of_mem_toDigits h

theorem length_paddedDigits_eq_iff {width n : Nat} (hwidth : 0 < width) :
    (paddedDigits width n).length = width ↔ n < 10 ^ width := by
  rw [paddedDigits, List.length_leftpad, ← Nat.length_toDigits_le_iff (by decide) hwidth]
  omega

/-- Zeros in front do not change the number. -/
theorem numeral_paddedDigits {width n : Nat} (hwidth : 0 < width) (h : n < 10 ^ width) :
    Numeral width n (paddedDigits width n) where
  length_eq := (length_paddedDigits_eq_iff hwidth).mpr h
  isDigit _ hc := isDigit_of_mem_paddedDigits hc
  value_eq := by
    rw [paddedDigits, List.leftpad, Text.natOfDigits, Nat.ofDigitChars_append,
      Nat.ofDigitChars_replicate_zero, Nat.mul_zero, Nat.ofDigitChars_ten_toDigits]

/-- A zero behind a numeral multiplies its number by ten. -/
theorem Numeral.rightpad {width count n : Nat} {digits : List Char} (h : Numeral count n digits)
    (hle : count ≤ width) :
    Numeral width (n * 10 ^ (width - count)) (List.rightpad width '0' digits) := by
  obtain ⟨rfl, hdigits, rfl⟩ := h
  refine ⟨?_, fun c hc => ?_, ?_⟩
  · rw [List.length_rightpad, Nat.max_eq_left hle]
  · rcases List.mem_append.mp hc with hc | hc
    · exact hdigits c hc
    · rw [List.eq_of_mem_replicate hc]
      rfl
  · rw [List.rightpad, natOfDigits, Nat.ofDigitChars_append, Nat.ofDigitChars_replicate_zero,
      Nat.mul_comm]
    rfl

section

variable {digits rest : List Char} (h : ∀ c ∈ digits, c.isDigit)
  (hrest : ∀ c ∈ rest.head?, ¬ c.isDigit)
include h hrest

theorem takeWhile_isDigit_append : (digits ++ rest).takeWhile Char.isDigit = digits := by
  rw [List.takeWhile_append_of_pos h]
  cases rest with
  | nil => simp
  | cons c rest => simp [hrest c rfl]

theorem span_isDigit_append : (digits ++ rest).span Char.isDigit = (digits, rest) := by
  rw [List.span_eq_takeWhile_dropWhile, takeWhile_isDigit_append h hrest,
    List.dropWhile_append_of_pos h]
  cases rest with
  | nil => rfl
  | cons c rest => simp [hrest c rfl]

end

theorem of_span_isDigit_eq {text digits rest : List Char}
    (h : text.span Char.isDigit = (digits, rest)) :
    (∀ c ∈ digits, c.isDigit) ∧ text = digits ++ rest := by
  rw [List.span_eq_takeWhile_dropWhile, Prod.mk.injEq] at h
  obtain ⟨rfl, rfl⟩ := h
  exact ⟨fun _ hc => List.mem_takeWhile_imp hc, List.takeWhile_append_dropWhile.symm⟩

end Text
end AccessPolicy

import AccessPolicy.Proofs.DurationReading

/-!
The text of a duration. It names whole units from the largest down, each of what
the larger ones leave over, and leaves out the amounts that are zero. Since nothing
is left over by the milliseconds, the amounts add up to the duration, and the text
is a literal that denotes it; only the least duration is not read back.
-/

namespace AccessPolicy
namespace Duration

/-- The amounts that the text of so many milliseconds names. -/
def namedAmounts : List TimeUnit → Nat → List (TimeUnit × Nat)
  | [], _ => []
  | unit :: units, millis =>
    let rest := namedAmounts units (millis % unit.millis)
    if millis / unit.millis = 0 then rest else (unit, millis / unit.millis) :: rest

theorem spellsAmounts_unitsText (units : List TimeUnit) (millis : Nat) :
    SpellsAmounts units (unitsText units millis).toList (namedAmounts units millis) := by
  induction units generalizing millis with
  | nil => exact .nil
  | cons unit units ih =>
      have hrest := ih (millis % unit.millis)
      rw [unitsText, namedAmounts]
      split
      · rw [String.empty_append]
        exact .skip unit hrest
      · obtain ⟨count, hdigits⟩ := Text.exists_numeral_toDigits (millis / unit.millis)
        have htext (rest : String) :
            ((millis / unit.millis).repr ++ String.ofList unit.symbol ++ rest).toList =
              Nat.toDigits 10 (millis / unit.millis) ++ (unit.symbol ++ rest.toList) := by
          simp [Nat.repr]
        rw [htext]
        exact .amount unit hdigits hrest

theorem total_namedAmounts_cons (unit : TimeUnit) (units : List TimeUnit) (millis : Nat) :
    total (namedAmounts (unit :: units) millis) =
      millis / unit.millis * unit.millis + total (namedAmounts units (millis % unit.millis)) := by
  rw [namedAmounts]
  split
  · next hzero => rw [hzero, Nat.zero_mul, Nat.zero_add]
  · exact total_cons unit _ _

/-- Milliseconds leave nothing over. -/
theorem total_namedAmounts (units : List TimeUnit) (millis : Nat) :
    total (namedAmounts (units ++ [.millisecond]) millis) = millis := by
  induction units generalizing millis with
  | nil =>
      rw [List.nil_append, total_namedAmounts_cons]
      change millis / 1 * 1 + 0 = millis
      rw [Nat.div_one, Nat.mul_one, Nat.add_zero]
  | cons unit units ih =>
      rw [List.cons_append, total_namedAmounts_cons, ih, Nat.div_add_mod']

theorem total_descending (millis : Nat) :
    total (namedAmounts TimeUnit.descending millis) = millis :=
  total_namedAmounts [.day, .hour, .minute, .second] millis

theorem spells_text {d : Duration} (h : d.millis ≠ 0) :
    Spells d.text.toList (d.millis.toInt < 0)
      (namedAmounts TimeUnit.descending d.millis.toInt.natAbs) := by
  have hamounts := spellsAmounts_unitsText TimeUnit.descending d.millis.toInt.natAbs
  rw [text, if_neg h]
  split
  · next hneg =>
    rw [decide_eq_true hneg, String.toList_append]
    exact .negative hamounts
  · next hpos =>
    rw [decide_eq_false hpos, String.empty_append]
    exact .unsigned hamounts

/-- The text of a duration has the duration as its total. -/
theorem signedTotal_text (d : Duration) :
    signedTotal (d.millis.toInt < 0) (namedAmounts TimeUnit.descending d.millis.toInt.natAbs) =
      d.millis.toInt := by
  rw [signedTotal, total_descending]
  simp only [decide_eq_true_eq]
  split <;> omega

theorem magnitude_inRange_iff (d : Duration) :
    Long.InRange (d.millis.toInt.natAbs : Nat) ↔ Int64.minValue < d.millis := by
  have hmin : Int64.minValue.toInt = -9223372036854775808 := rfl
  have hrange := Long.inRange_toInt d.millis
  rw [Int64.lt_iff_toInt_lt, hmin]
  unfold Long.InRange at *
  omega

/-- The text of a duration is read back as the duration, unless it is the least one. -/
theorem ofText_text_iff_minValue_lt (d : Duration) :
    ofText d.text = .ok d ↔ Int64.minValue < d.millis := by
  by_cases hzero : d.millis = 0
  · obtain ⟨millis⟩ := d
    subst hzero
    exact ⟨fun _ => by decide, fun _ => rfl⟩
  have hspells := spells_text hzero
  have htotal := total_descending d.millis.toInt.natAbs
  rw [ofText_eq_ok_iff, ← magnitude_inRange_iff]
  constructor
  · rintro ⟨negative, amounts, hother, -, hrange, -⟩
    -- The text has one derivation only.
    have hparts := parts?_eq_some_iff.mpr hspells
    rw [parts?_eq_some_iff.mpr hother] at hparts
    cases hparts
    rwa [htotal] at hrange
  · intro hrange
    refine ⟨_, _, hspells, fun hnil => hzero ?_, htotal.symm ▸ hrange, (signedTotal_text d).symm⟩
    rw [hnil] at htotal
    exact Int64.toInt_inj.mp (Int.natAbs_eq_zero.mp htotal.symm)

end Duration
end AccessPolicy

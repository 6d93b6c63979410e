import AccessPolicy.Proofs.InstantArithmetic
import AccessPolicy.Proofs.InstantDays

/-!
The text of an instant. Where the year of its UTC date has four digits the text is
a literal and denotes the instant; any other year is written with another count of
digits, and the text is no literal. A literal itself may denote such an instant,
since its offset can lead from the first of these years to the one before and from
the last to the one after.
-/

namespace AccessPolicy
namespace Datetime

open Text (Numeral)

/-- What the text of an instant says. -/
def written (t : Datetime) : Written :=
  let time := t.millisOfDay.toNat
  ⟨Date.ofDays t.day, ⟨time / 3600000, time % 3600000 / 60000, time % 60000 / 1000, time % 1000, .utc⟩⟩

theorem written_exists (t : Datetime) : t.written.Exists := by
  have htime : 0 ≤ t.millisOfDay ∧ t.millisOfDay < 86400000 := millisOfDay_bounds t
  refine ⟨Date.ofDays_valid _, ?_, ?_, ?_, Nat.zero_le _, Nat.zero_le _⟩
  all_goals
    dsimp only [written]
    omega

theorem written_toMillis (t : Datetime) : t.written.toMillis = t.millis.toInt := by
  have htime : 0 ≤ t.millisOfDay ∧ t.millisOfDay < 86400000 := millisOfDay_bounds t
  have hsplit := day_add_millisOfDay t
  have hoffset : Offset.utc.toMillis = 0 := rfl
  rw [Written.toMillis, written, Date.toDays_ofDays, hoffset, Clock.toMillis]
  dsimp only
  omega

theorem toList_text (t : Datetime) :
    t.text.toList = (yearText t.written.date.year).toList ++
      '-' :: (Text.paddedDigits 2 t.written.date.month ++
      '-' :: (Text.paddedDigits 2 t.written.date.day ++
      'T' :: (Text.paddedDigits 2 t.written.clock.hour ++
      ':' :: (Text.paddedDigits 2 t.written.clock.minute ++
      ':' :: (Text.paddedDigits 2 t.written.clock.second ++
      '.' :: (Text.paddedDigits 3 t.written.clock.millis ++ ['Z'])))))) := by
  simp [text, written, Text.padded]

theorem yearText_of_nonneg {year : Int} (h : 0 ≤ year) :
    (yearText year).toList = Text.paddedDigits 4 year.natAbs := by
  rw [yearText, if_neg (Int.not_lt.mpr h), Text.padded, String.toList_ofList]

theorem spells_text {t : Datetime} (h0 : 0 ≤ t.written.date.year)
    (h : t.written.date.year < 10000) : Written.Spells t.text.toList t.written := by
  have hexists := written_exists t
  have hmillis : t.written.clock.millis < 1000 := Nat.mod_lt _ (by decide)
  have hzone : t.written.clock.offset = .utc := rfl
  rw [toList_text, yearText_of_nonneg h0]
  generalize t.written = w at *
  obtain ⟨⟨year, month, day⟩, ⟨hour, minute, second, millis, offset⟩⟩ := w
  obtain ⟨⟨-, hmonth, -, hday⟩, hhour, hminute, hsecond, -, -⟩ := hexists
  obtain ⟨year, rfl⟩ := Int.eq_ofNat_of_zero_le h0
  dsimp only at *
  subst hzone
  have hlength := (Date.daysInMonth_bounds year month).2
  have htwo {n : Nat} (hn : n < 100) : Numeral 2 n (Text.paddedDigits 2 n) :=
    Text.numeral_paddedDigits (by decide) hn
  exact .dateTime (Text.numeral_paddedDigits (by decide) (Int.ofNat_lt.mp h))
    (htwo (by omega)) (htwo (by omega))
    (.toMillis (htwo (by omega)) (htwo (by omega)) (htwo (by omega))
      (Text.numeral_paddedDigits (by decide) hmillis) .utc)

theorem ofText_text {t : Datetime} (h0 : 0 ≤ t.written.date.year)
    (h : t.written.date.year < 10000) : ofText t.text = .ok t :=
  ofText_eq_ok_iff.mpr ⟨t.written, spells_text h0 h, written_exists t, (written_toMillis t).symm⟩

/-- A literal starts with four digits and no more. -/
theorem Written.Spells.length_takeWhile {text : List Char} {w : Written} (h : Spells text w) :
    (text.takeWhile Char.isDigit).length = 4 := by
  have hdash (rest : List Char) : ∀ c ∈ ('-' :: rest).head?, ¬ c.isDigit := by simp
  cases h with
  | date hyear | dateTime hyear =>
      rw [Text.takeWhile_isDigit_append hyear.isDigit (hdash _), hyear.length_eq]

theorem ofText_text_of_other_year {t : Datetime}
    (h : t.written.date.year < 0 ∨ 10000 ≤ t.written.date.year) :
    ofText t.text = .error .malformed := by
  have hnone : Written.ofText? t.text.toList = none := by
    rw [Option.eq_none_iff_forall_not_mem]
    intro w hw
    have hfour := (Written.ofText?_eq_some_iff.mp hw).length_takeWhile
    rw [toList_text] at hfour
    -- A negative year starts with its sign, and from 10000 on there are more digits.
    rcases h with hneg | hlarge
    · rw [yearText, if_pos hneg] at hfour
      simp at hfour
    · have hdigits : ∀ c ∈ Text.paddedDigits 4 t.written.date.year.natAbs, c.isDigit :=
        fun _ => Text.isDigit_of_mem_paddedDigits
      rw [yearText_of_nonneg (Int.le_trans (by decide) hlarge),
        Text.takeWhile_isDigit_append hdigits (by simp),
        Text.length_paddedDigits_eq_iff (by decide)] at hfour
      omega
  rw [ofText, hnone]

/-- The UTC date of an instant that a literal denotes is out of the years of four
digits only through the offset: from the first day of these years to the day before,
or from the last to the day after. -/
def Written.LeavesYears (w : Written) : Prop :=
  (w.date = ⟨0, 1, 1⟩ ∧ w.clock.toMillis < w.clock.offset.toMillis) ∨
    (w.date = ⟨9999, 12, 31⟩ ∧ 86400000 ≤ w.clock.toMillis - w.clock.offset.toMillis)

theorem Written.leavesYears_iff {w : Written} {t : Datetime} (hs : w.Small) (h : w.Exists)
    (ht : t.millis.toInt = w.toMillis) :
    w.LeavesYears ↔ t.written.date.year < 0 ∨ 10000 ≤ t.written.date.year := by
  have hclock := Clock.toMillis_bounds hs h
  have hoffset := Offset.toMillis_bounds h
  have hdays := toDays_bounds hs h
  have hfirst : w.date = ⟨0, 1, 1⟩ ↔ w.date.toDays = -719528 :=
    Date.eq_iff_toDays_eq h.date (by decide)
  have hlast : w.date = ⟨9999, 12, 31⟩ ↔ w.date.toDays = 2932896 :=
    Date.eq_iff_toDays_eq h.date (by decide)
  have hneg := Date.toDays_lt_iff_year_lt (Date.ofDays_valid t.day) 0
  have hlarge := Date.toDays_lt_iff_year_lt (Date.ofDays_valid t.day) 10000
  have hzero : (Date.mk 0 1 1).toDays = -719528 := rfl
  have hend : (Date.mk 10000 1 1).toDays = 2932897 := rfl
  have hyear : t.written.date.year = (Date.ofDays t.day).year := rfl
  rw [Date.toDays_ofDays] at hneg hlarge
  rw [LeavesYears, hfirst, hlast, hyear]
  -- The offset is less than a day, so that the UTC day is at most one day off the date.
  unfold day toMillis millisPerDay at *
  omega

/-- The text of an instant whose date has a year of four digits denotes the instant. -/
theorem ofText_text_within_years {t : Datetime} {d : Date} (hd : d.Valid)
    (hday : d.DaysFromEpoch t.day) (h0 : 0 ≤ d.year) (h : d.year ≤ 9999) :
    ofText t.text = .ok t := by
  have hdays : t.written.date.toDays = d.toDays :=
    (Date.toDays_ofDays t.day).trans ((Date.daysFromEpoch_iff hd).mp hday).symm
  have hdate : t.written.date = d :=
    (Date.eq_iff_toDays_eq (written_exists t).date hd).mpr hdays
  rw [← hdate] at h0 h
  exact ofText_text h0 (Int.lt_add_one_of_le h)

/-- The last millisecond of a leap day long before the first day. -/
theorem ofText_text_within_years_leapDay :
    (Date.mk 0 2 29).Valid ∧ (Date.mk 0 2 29).DaysFromEpoch (mk (-62162035200001)).day ∧
      (mk (-62162035200001)).text = "0000-02-29T23:59:59.999Z" ∧
      ofText (mk (-62162035200001)).text = .ok (mk (-62162035200001)) := by
  have hd : (Date.mk 0 2 29).Valid := by decide
  have hday : (Date.mk 0 2 29).DaysFromEpoch (mk (-62162035200001)).day :=
    (Date.daysFromEpoch_iff hd).mpr rfl
  exact ⟨hd, hday, rfl, ofText_text_within_years hd hday (by decide) (by decide)⟩

/-- The text of an instant that a literal denotes is a literal and denotes it again,
unless the offset leads out of the years of four digits; then it is no literal. -/
theorem text_of_literal_reads_back {text : String} {t : Datetime} (h : ofText text = .ok t) :
    ∃ w, Written.Spells text.toList w ∧ (¬ w.LeavesYears → ofText t.text = .ok t) ∧
      (w.LeavesYears → ofText t.text = .error .malformed) := by
  obtain ⟨w, hw, hexists, ht⟩ := ofText_eq_ok_iff.mp h
  have hleaves := Written.leavesYears_iff hw.small hexists ht
  refine ⟨w, hw, fun hstays => ?_, fun hleft => ofText_text_of_other_year (hleaves.mp hleft)⟩
  rw [hleaves] at hstays
  exact ofText_text (by omega) (by omega)

/-- On the last day of the last year an offset of two hours is too much from ten in
the evening on. -/
theorem text_of_literal_reads_back_evening :
    ofText "9999-12-31T21:59:59.999-0200" = .ok (mk 253402300799999) ∧
      ∃ w, Written.Spells "9999-12-31T21:59:59.999-0200".toList w ∧
        (¬ w.LeavesYears → ofText (mk 253402300799999).text = .ok (mk 253402300799999)) ∧
        (w.LeavesYears → ofText (mk 253402300799999).text = .error .malformed) :=
  ⟨rfl, text_of_literal_reads_back rfl⟩

/-- An offset of almost a day leads from the first day of year zero to the year
before, the text of which has a sign. -/
theorem text_of_literal_unread :
    ofText "0000-01-01T00:00:00+2359" = .ok (mk (-62167305540000)) ∧
      (mk (-62167305540000)).text = "-001-12-31T00:01:00.000Z" ∧
      ofText (mk (-62167305540000)).text = .error .malformed :=
  ⟨rfl, rfl, rfl⟩

end Datetime
end AccessPolicy

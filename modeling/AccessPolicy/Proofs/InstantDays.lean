import Mathlib.Data.Option.Basic
import AccessPolicy.Datetime

/-!
The UTC days of instants and the spans between instants. The start of a day is an
instant itself, but for the first day, which instants reach only after its start.
A duration leads from one instant to another just if it is the duration since the
one, at both ends of the range.
-/

namespace AccessPolicy

theorem Long.map_ofInt?_eq_some_iff {α : Type} {mk : Long → α} (hmk : Function.Injective mk)
    {n : Int} {a : Long} : (ofInt? n).map mk = some (mk a) ↔ n = a.toInt := by
  rw [← Option.map_some, (Option.map_injective hmk).eq_iff, ofInt?_eq_some_iff, eq_comm]

namespace Datetime

theorem millisOfDay_bounds (t : Datetime) : 0 ≤ t.millisOfDay ∧ t.millisOfDay < millisPerDay := by
  unfold millisOfDay millisPerDay
  omega

theorem day_add_millisOfDay (t : Datetime) :
    t.day * millisPerDay + t.millisOfDay = t.millis.toInt :=
  Int.ediv_mul_add_emod _ _

theorem toInt_toTime (t : Datetime) : t.toTime.millis.toInt = t.millisOfDay := by
  obtain ⟨hnonneg, hlt⟩ := millisOfDay_bounds t
  apply Long.toInt_ofInt
  unfold Long.InRange
  unfold millisPerDay at hlt
  omega

/-- The UTC day of the instant starts at the millisecond `s`, which may lie before
the first instant. -/
structure StartsDay (s : Int) (t : Datetime) : Prop where
  dvd : millisPerDay ∣ s
  le : s ≤ t.millis.toInt
  lt : t.millis.toInt < s + millisPerDay

theorem startsDay_iff {s : Int} {t : Datetime} : StartsDay s t ↔ t.day * millisPerDay = s := by
  have hsplit := day_add_millisOfDay t
  obtain ⟨hnonneg, hlt⟩ := millisOfDay_bounds t
  constructor
  · rintro ⟨⟨k, rfl⟩, hle, hbefore⟩
    unfold millisPerDay at *
    omega
  · rintro rfl
    exact ⟨Int.dvd_mul_left _ _, by omega, by omega⟩

theorem toDate?_eq_some_iff {t d : Datetime} : t.toDate? = some d ↔ StartsDay d.millis.toInt t :=
  (Long.map_ofInt?_eq_some_iff fun _ _ => mk.inj).trans startsDay_iff.symm

theorem toDate?_eq_none_iff {t : Datetime} :
    t.toDate? = none ↔ ∃ s, StartsDay s t ∧ s < Int64.minValue.toInt := by
  have hrange := Long.inRange_toInt t.millis
  have hsplit := day_add_millisOfDay t
  have hnonneg := (millisOfDay_bounds t).1
  have hmin : Int64.minValue.toInt = -9223372036854775808 := rfl
  simp only [startsDay_iff, exists_eq_left', toDate?, Option.map_eq_none_iff,
    Long.ofInt?_eq_none_iff, hmin]
  -- the start of a day is not after the instant, so only the lower end is in question
  unfold Long.InRange at *
  omega

theorem offset?_eq_some_iff {t u : Datetime} {d : Duration} :
    t.offset? d = some u ↔ t.millis.toInt + d.millis.toInt = u.millis.toInt :=
  Long.map_ofInt?_eq_some_iff fun _ _ => mk.inj

theorem durationSince?_eq_some_iff {t u : Datetime} {d : Duration} :
    u.durationSince? t = some d ↔ u.millis.toInt - t.millis.toInt = d.millis.toInt :=
  Long.map_ofInt?_eq_some_iff fun _ _ => Duration.mk.inj

/-- An instant is the start of its UTC day with the time since then put on, unless
this start lies before the first instant; and going later by a duration is inverse
to taking the duration between two instants. -/
theorem days_and_spans_consistent :
    (∀ t : Datetime,
      (0 ≤ t.toTime.millis.toInt ∧ t.toTime.millis.toInt < millisPerDay) ∧
      (t.toDate? = none ↔ ∃ s, StartsDay s t ∧ s < Int64.minValue.toInt) ∧
      ∀ d, t.toDate? = some d →
        StartsDay d.millis.toInt t ∧ d.toDate? = some d ∧ d.offset? t.toTime = some t) ∧
    ∀ (t u : Datetime) (d : Duration), t.offset? d = some u ↔ u.durationSince? t = some d := by
  refine ⟨fun t => ⟨?_, toDate?_eq_none_iff, fun d hd => ?_⟩, fun t u d => ?_⟩
  · rw [toInt_toTime]
    exact millisOfDay_bounds t
  · have hstart := toDate?_eq_some_iff.mp hd
    refine ⟨hstart, toDate?_eq_some_iff.mpr ⟨hstart.dvd, Int.le_refl _, ?_⟩, ?_⟩
    · exact Int.lt_add_of_pos_right _ (by decide)
    · rw [offset?_eq_some_iff, toInt_toTime, ← startsDay_iff.mp hstart]
      exact day_add_millisOfDay t
  · rw [offset?_eq_some_iff, durationSince?_eq_some_iff]
    omega

/-- The first day of which the start is an instant, and the end of the day before. -/
theorem days_and_spans_consistent_first :
    (Datetime.mk (-9223372036828799999)).toDate? = some ⟨-9223372036828800000⟩ ∧
    (Datetime.mk (-9223372036828800000)).offset? (Datetime.mk (-9223372036828799999)).toTime =
      some ⟨-9223372036828799999⟩ ∧
    (Datetime.mk (-9223372036828800001)).toDate? = none := by
  have hdate : (Datetime.mk (-9223372036828799999)).toDate? = some ⟨-9223372036828800000⟩ := by
    decide
  refine ⟨hdate, ((days_and_spans_consistent.1 _).2.2 _ hdate).2.2, ?_⟩
  refine (days_and_spans_consistent.1 _).2.1.mpr ⟨-9223372036915200000, ⟨?_, ?_, ?_⟩, ?_⟩
  all_goals decide

end Datetime
end AccessPolicy

import AccessPolicy.Proofs.CalendarArithmetic
import AccessPolicy.Proofs.InstantReading

/-!
Reading an instant in machine words. The parts of a literal have few digits, so
that each of them is a word and so is every sum on the way to the instant; the
instant is read exactly where its date and its time of day exist, and is the
number of milliseconds that the calendar gives it.
-/

namespace AccessPolicy
namespace Long

theorem eq_iff_of_toInt {a b : Long} {m n : Int} (ha : a.toInt = m) (hb : b.toInt = n) :
    a = b ↔ m = n := by
  subst ha hb
  exact Int64.toInt_inj.symm

theorem lt_iff_of_toInt {a b : Long} {m n : Nat} (ha : a.toInt = m) (hb : b.toInt = n) :
    a < b ↔ m < n := by
  rw [Int64.lt_iff_toInt_lt, ha, hb, Int.ofNat_lt]

theorem le_iff_of_toInt {a b : Long} {m n : Nat} (ha : a.toInt = m) (hb : b.toInt = n) :
    a ≤ b ↔ m ≤ n := by
  rw [Int64.le_iff_toInt_le, ha, hb, Int.ofNat_le]

end Long

theorem Exact.neg {a : Long} {m k : Int} (ha : a.toInt = m) (hk : -m = k)
    (h : Long.InRange k) : Exact Int64.toInt (Long.neg? a) k := by
  subst ha hk
  exact ofInt? h

namespace Date

def isLeapYearWord? (year : Long) : Option Bool := do
  let four ← Long.rem? year 4
  let hundred ← Long.rem? year 100
  let fourHundred ← Long.rem? year 400
  some ((four = 0 ∧ hundred ≠ 0) ∨ fourHundred = 0)

def daysInMonthWord? (year month : Long) : Option Long :=
  if month = 4 ∨ month = 6 ∨ month = 9 ∨ month = 11 then some 30
  else if month = 2 then (isLeapYearWord? year).map fun leap => if leap then 29 else 28
  else some 31

/-- The length of the month is asked for only if there is such a month. -/
def Words.isValid? (w : Words) : Option Bool :=
  if w.month < 1 ∨ 12 < w.month ∨ w.day < 1 then some false
  else (daysInMonthWord? w.year w.month).map fun length => decide (w.day ≤ length)

theorem isLeapYearWord?_eq {a : Long} {y : Int} (ha : a.toInt = y) (hy : 0 ≤ y) :
    isLeapYearWord? a = some (isLeapYear y) := by
  obtain ⟨four, hfour, hfour'⟩ := Exact.rem ha (b := 4) rfl hy (by decide) rfl
  obtain ⟨hundred, hhundred, hhundred'⟩ := Exact.rem ha (b := 100) rfl hy (by decide) rfl
  obtain ⟨fourHundred, hfourHundred, hfourHundred'⟩ :=
    Exact.rem ha (b := 400) rfl hy (by decide) rfl
  have hleap : ((four = 0 ∧ hundred ≠ 0) ∨ fourHundred = 0) ↔ isLeapYear y := by
    rw [isLeapYear_iff, ne_eq, Long.eq_iff_of_toInt hfour' rfl,
      Long.eq_iff_of_toInt hhundred' rfl, Long.eq_iff_of_toInt hfourHundred' rfl]
    rfl
  rw [isLeapYearWord?, hfour, hhundred, hfourHundred]
  simp only [Option.bind_eq_bind, Option.bind_some, hleap, Bool.decide_eq_true]

theorem daysInMonthWord?_exact {year month : Long} {d : Date} (hyear : year.toInt = d.year)
    (hmonth : month.toInt = d.month) (h : 0 ≤ d.year) :
    Exact Int64.toInt (daysInMonthWord? year month) (daysInMonth d.year d.month) := by
  have hmonth_eq {a : Long} {m : Nat} (ha : a.toInt = m) : month = a ↔ d.month = m :=
    (Long.eq_iff_of_toInt hmonth ha).trans Int.natCast_inj
  rw [daysInMonthWord?, isLeapYearWord?_eq hyear h]
  simp only [hmonth_eq (a := 2) (m := 2) rfl, hmonth_eq (a := 4) (m := 4) rfl,
    hmonth_eq (a := 6) (m := 6) rfl, hmonth_eq (a := 9) (m := 9) rfl,
    hmonth_eq (a := 11) (m := 11) rfl]
  split
  · next hthirty => rcases hthirty with hm | hm | hm | hm <;> exact hm ▸ .some rfl
  · next hthirty =>
    split
    · next hfebruary =>
      have hlength : daysInMonth d.year 2 = if isLeapYear d.year then 29 else 28 := rfl
      rw [hfebruary, hlength]
      cases isLeapYear d.year <;> exact .some rfl
    · next hfebruary =>
      have hlength : daysInMonth d.year d.month = 31 := by
        unfold daysInMonth
        split <;> simp_all
      exact hlength ▸ .some rfl

theorem Words.isValid?_eq {w : Words} {d : Date} (hyear : w.year.toInt = d.year)
    (hmonth : w.month.toInt = d.month) (hday : w.day.toInt = d.day) (h : 0 ≤ d.year) :
    w.isValid? = some (decide d.Valid) := by
  obtain ⟨length, hlength, hlength'⟩ := daysInMonthWord?_exact hyear hmonth h
  rw [isValid?, hlength]
  simp only [Long.lt_iff_of_toInt hmonth (b := 1) (n := 1) rfl,
    Long.lt_iff_of_toInt (a := 12) (m := 12) rfl hmonth,
    Long.lt_iff_of_toInt hday (b := 1) (n := 1) rfl, Long.le_iff_of_toInt hday hlength',
    Option.map_some]
  split
  · next hout =>
    have hd : ¬ d.Valid := by
      unfold Valid
      omega
    rw [decide_eq_false hd]
  · next hin =>
    refine congrArg some (decide_eq_decide.mpr ?_)
    unfold Valid
    omega

end Date

namespace Datetime

/-- The parts of a literal in words. -/
structure Written.Words where
  date : Date.Words
  hour : Long
  minute : Long
  second : Long
  millis : Long
  negative : Bool
  offsetHours : Long
  offsetMinutes : Long
deriving DecidableEq, Repr

def Written.words? (w : Written) : Option Words := do
  let year ← Long.ofInt? w.date.year
  let month ← Long.ofInt? w.date.month
  let day ← Long.ofInt? w.date.day
  let hour ← Long.ofInt? w.clock.hour
  let minute ← Long.ofInt? w.clock.minute
  let second ← Long.ofInt? w.clock.second
  let millis ← Long.ofInt? w.clock.millis
  let offsetHours ← Long.ofInt? w.clock.offset.hours
  let offsetMinutes ← Long.ofInt? w.clock.offset.minutes
  some { date := ⟨year, month, day⟩, hour, minute, second, millis,
         negative := w.clock.offset.negative, offsetHours, offsetMinutes }

def Written.Words.fault? (v : Words) : Option (Option Fault) := do
  if ¬ (← v.date.isValid?) then some (some .noSuchDate)
  else if 23 < v.hour ∨ 59 < v.minute ∨ 59 < v.second then some (some .noSuchTime)
  else if 23 < v.offsetHours ∨ 59 < v.offsetMinutes then some (some .noSuchOffset)
  else some none

def Written.Words.offsetMillis? (v : Words) : Option Long := do
  let magnitude ← Long.add? (← Long.mul? v.offsetHours 3600000) (← Long.mul? v.offsetMinutes 60000)
  if v.negative then Long.neg? magnitude else some magnitude

def Written.Words.toMillis? (v : Words) : Option Long := do
  let offset ← v.offsetMillis?
  let midnight ← Long.mul? (← Date.toDaysWord? v.date) 86400000
  let hours ← Long.add? midnight (← Long.mul? v.hour 3600000)
  let minutes ← Long.add? hours (← Long.mul? v.minute 60000)
  let seconds ← Long.add? minutes (← Long.mul? v.second 1000)
  Long.sub? (← Long.add? seconds v.millis) offset

/-- The reading of an instant in words, without a result where an operation has
none. -/
def ofTextWord? (text : String) : Option (Except Fault Datetime) :=
  match Written.ofText? text.toList with
  | none => some (.error .malformed)
  | some w => do
    let v ← w.words?
    match ← v.fault? with
    | some fault => some (.error fault)
    | none => return .ok ⟨← v.toMillis?⟩

/-- The words are the parts of the literal. -/
structure Written.Words.StandsFor (v : Words) (w : Written) : Prop where
  year : v.date.year.toInt = w.date.year
  month : v.date.month.toInt = w.date.month
  day : v.date.day.toInt = w.date.day
  hour : v.hour.toInt = w.clock.hour
  minute : v.minute.toInt = w.clock.minute
  second : v.second.toInt = w.clock.second
  millis : v.millis.toInt = w.clock.millis
  negative : v.negative = w.clock.offset.negative
  offsetHours : v.offsetHours.toInt = w.clock.offset.hours
  offsetMinutes : v.offsetMinutes.toInt = w.clock.offset.minutes

/-- The bounds that the counts of digits set. -/
structure Clock.Small (c : Clock) : Prop where
  hour_lt : c.hour < 100
  minute_lt : c.minute < 100
  second_lt : c.second < 100
  millis_lt : c.millis < 1000
  offsetHours_lt : c.offset.hours < 100
  offsetMinutes_lt : c.offset.minutes < 100

structure Written.Small (w : Written) : Prop where
  year_nonneg : 0 ≤ w.date.year
  year_lt : w.date.year < 10000
  month_lt : w.date.month < 100
  day_lt : w.date.day < 100
  clock : w.clock.Small

/-- The date, the time of day and the offset exist. -/
structure Written.Exists (w : Written) : Prop where
  date : w.date.Valid
  hour : w.clock.hour ≤ 23
  minute : w.clock.minute ≤ 59
  second : w.clock.second ≤ 59
  offsetHours : w.clock.offset.hours ≤ 23
  offsetMinutes : w.clock.offset.minutes ≤ 59

theorem Written.fault?_eq_none_iff {w : Written} : w.fault? = none ↔ w.Exists := by
  constructor
  · intro h
    unfold fault? at h
    split_ifs at h with hdate htime hoffset
    exact ⟨hdate, by omega, by omega, by omega, by omega, by omega⟩
  · rintro ⟨hdate, hhour, hminute, hsecond, hhours, hminutes⟩
    rw [fault?, if_neg (Decidable.not_not.mpr hdate), if_neg (by omega), if_neg (by omega)]

theorem Clock.midnight_small : Clock.midnight.Small := by
  constructor <;> decide

theorem Offset.Spells.lt {text : List Char} {o : Offset} (h : Spells text o) :
    o.hours < 100 ∧ o.minutes < 100 := by
  cases h with
  | utc => decide
  | signed _ hhours hminutes => exact ⟨hhours.lt, hminutes.lt⟩

theorem Clock.Spells.small {text : List Char} {c : Clock} (h : Spells text c) : c.Small := by
  cases h with
  | toSeconds hhour hminute hsecond hzone =>
      exact ⟨hhour.lt, hminute.lt, hsecond.lt, (by decide : 0 < 1000), hzone.lt.1, hzone.lt.2⟩
  | toMillis hhour hminute hsecond hmillis hzone =>
      exact ⟨hhour.lt, hminute.lt, hsecond.lt, hmillis.lt, hzone.lt.1, hzone.lt.2⟩

theorem Written.Spells.small {text : List Char} {w : Written} (h : Spells text w) :
    w.Small := by
  cases h with
  | date hyear hmonth hday =>
      exact ⟨Int.natCast_nonneg _, Int.ofNat_lt.mpr hyear.lt, hmonth.lt, hday.lt,
        Clock.midnight_small⟩
  | dateTime hyear hmonth hday hclock =>
      exact ⟨Int.natCast_nonneg _, Int.ofNat_lt.mpr hyear.lt, hmonth.lt, hday.lt, hclock.small⟩

section

variable {w : Written} (hs : w.Small) (h : w.Exists)

include hs h in
theorem Written.toDays_bounds : -719528 ≤ w.date.toDays ∧ w.date.toDays ≤ 2932896 := by
  have hfirst := Date.toDays_lt_iff_year_lt h.date 0
  have hlast := Date.toDays_lt_iff_year_lt h.date 10000
  have hzero : (Date.mk 0 1 1).toDays = -719528 := rfl
  have hend : (Date.mk 10000 1 1).toDays = 2932897 := rfl
  have hnonneg := hs.year_nonneg
  have hlt := hs.year_lt
  omega

include hs h in
theorem Clock.toMillis_bounds :
    0 ≤ w.clock.toMillis ∧ w.clock.toMillis < 86400000 := by
  have hhour := h.hour
  have hminute := h.minute
  have hsecond := h.second
  have hmillis := hs.clock.millis_lt
  unfold toMillis
  omega

include h in
theorem Offset.toMillis_bounds :
    -86400000 < w.clock.offset.toMillis ∧ w.clock.offset.toMillis < 86400000 := by
  have hhours := h.offsetHours
  have hminutes := h.offsetMinutes
  unfold toMillis
  dsimp only
  split <;> omega

end

theorem Written.words?_standsFor {w : Written} (h : w.Small) :
    ∃ v, w.words? = some v ∧ v.StandsFor w := by
  have hword {n : Nat} (hn : n < 10000) : Exact Int64.toInt (Long.ofInt? n) n :=
    Exact.ofInt? ⟨by omega, by omega⟩
  obtain ⟨year, hyear, hyear'⟩ : Exact Int64.toInt (Long.ofInt? w.date.year) w.date.year := by
    have hnonneg := h.year_nonneg
    have hlt := h.year_lt
    exact Exact.ofInt? ⟨by omega, by omega⟩
  have hsmall {n : Nat} (hn : n < 100) := hword (Nat.lt_trans hn (by decide))
  obtain ⟨month, hmonth, hmonth'⟩ := hsmall h.month_lt
  obtain ⟨day, hday, hday'⟩ := hsmall h.day_lt
  obtain ⟨hour, hhour, hhour'⟩ := hsmall h.clock.hour_lt
  obtain ⟨minute, hminute, hminute'⟩ := hsmall h.clock.minute_lt
  obtain ⟨second, hsecond, hsecond'⟩ := hsmall h.clock.second_lt
  obtain ⟨millis, hmillis, hmillis'⟩ := hword (Nat.lt_trans h.clock.millis_lt (by decide))
  obtain ⟨hours, hhours, hhours'⟩ := hsmall h.clock.offsetHours_lt
  obtain ⟨minutes, hminutes, hminutes'⟩ := hsmall h.clock.offsetMinutes_lt
  rw [words?, hyear, hmonth, hday, hhour, hminute, hsecond, hmillis, hhours, hminutes]
  exact ⟨_, rfl, hyear', hmonth', hday', hhour', hminute', hsecond', hmillis', rfl, hhours',
    hminutes'⟩

section

variable {v : Written.Words} {w : Written} (hv : v.StandsFor w)
include hv

theorem Written.Words.fault?_eq (h : 0 ≤ w.date.year) : v.fault? = some w.fault? := by
  rw [fault?, Date.Words.isValid?_eq hv.year hv.month hv.day h, Written.fault?]
  simp only [Long.lt_iff_of_toInt (a := 23) (m := 23) rfl hv.hour,
    Long.lt_iff_of_toInt (a := 59) (m := 59) rfl hv.minute,
    Long.lt_iff_of_toInt (a := 59) (m := 59) rfl hv.second,
    Long.lt_iff_of_toInt (a := 23) (m := 23) rfl hv.offsetHours,
    Long.lt_iff_of_toInt (a := 59) (m := 59) rfl hv.offsetMinutes, Option.bind_eq_bind,
    Option.bind_some, decide_eq_true_eq]
  split_ifs <;> rfl

theorem Written.Words.offsetMillis?_exact (h : w.Exists) :
    Exact Int64.toInt v.offsetMillis? w.clock.offset.toMillis := by
  have hhours := h.offsetHours
  have hminutes := h.offsetMinutes
  refine .bind (.mul hv.offsetHours (n := 3600000) rfl rfl ?_) fun hours hhours' =>
    .bind (.mul hv.offsetMinutes (n := 60000) rfl rfl ?_) fun minutes hminutes' =>
    .bind (.add hhours' hminutes' rfl ?_) fun magnitude hmagnitude => ?_
  · exact ⟨by omega, by omega⟩
  · exact ⟨by omega, by omega⟩
  · exact ⟨by omega, by omega⟩
  · rw [hv.negative, Offset.toMillis]
    split
    · exact .neg hmagnitude rfl ⟨by omega, by omega⟩
    · exact .some hmagnitude

theorem Written.Words.toMillis?_exact (hs : w.Small) (h : w.Exists) :
    Exact Int64.toInt v.toMillis? w.toMillis := by
  have hdays := Written.toDays_bounds hs h
  have hclock := Clock.toMillis_bounds hs h
  have hoffset := Offset.toMillis_bounds h
  have hdate : v.date.date = w.date := Date.Words.date_eq hv.year hv.month hv.day
  have hhour := h.hour
  have hminute := h.minute
  have hsecond := h.second
  have hmillis := hs.clock.millis_lt
  refine .bind (offsetMillis?_exact hv h) fun offset hoffset' =>
    .bind (Date.toDaysWord?_exact h.date ?_ hdate) fun days hdays' =>
    .bind (.mul hdays' (n := 86400000) rfl (k := w.date.toDays * millisPerDay) rfl ?_)
      fun midnight hmidnight =>
    .bind (.mul hv.hour (n := 3600000) rfl rfl ?_) fun hour hhour' =>
    .bind (.add hmidnight hhour' rfl ?_) fun hours hhours =>
    .bind (.mul hv.minute (n := 60000) rfl rfl ?_) fun minute hminute' =>
    .bind (.add hhours hminute' rfl ?_) fun minutes hminutes =>
    .bind (.mul hv.second (n := 1000) rfl rfl ?_) fun second hsecond' =>
    .bind (.add hminutes hsecond' rfl ?_) fun seconds hseconds =>
    .bind (.add hseconds hv.millis rfl ?_) fun civil hcivil =>
    .sub hcivil hoffset' ?_ ?_
  all_goals
    simp only [Long.InRange, millisPerDay, toMillis, Clock.toMillis] at *
    omega

end

theorem Written.toMillis_inRange {w : Written} (hs : w.Small) (h : w.Exists) :
    Long.InRange w.toMillis := by
  have hdays := toDays_bounds hs h
  have hclock := Clock.toMillis_bounds hs h
  have hoffset := Offset.toMillis_bounds h
  unfold Long.InRange toMillis millisPerDay
  omega

theorem ofText_eq_ok_iff {text : String} {t : Datetime} :
    ofText text = .ok t ↔
      ∃ w, Written.Spells text.toList w ∧ w.Exists ∧ t.millis.toInt = w.toMillis := by
  constructor
  · intro h
    unfold ofText at h
    split at h
    · cases h
    · next w hread =>
      have hw := Written.ofText?_eq_some_iff.mp hread
      split at h
      · cases h
      · next hfault =>
        cases h
        have hexists := Written.fault?_eq_none_iff.mp hfault
        exact ⟨w, hw, hexists, Long.toInt_ofInt (Written.toMillis_inRange hw.small hexists)⟩
  · rintro ⟨w, hw, hexists, ht⟩
    simp only [ofText, Written.ofText?_eq_some_iff.mpr hw, Written.fault?_eq_none_iff.mpr hexists,
      ← ht, Int64.ofInt_toInt]

theorem ofTextWord?_eq (text : String) : ofTextWord? text = some (ofText text) := by
  cases hread : Written.ofText? text.toList with
  | none => simp [ofTextWord?, ofText, hread]
  | some w =>
      have hsmall := (Written.ofText?_eq_some_iff.mp hread).small
      obtain ⟨v, hwords, hv⟩ := Written.words?_standsFor hsmall
      have hfault' := Written.Words.fault?_eq hv hsmall.year_nonneg
      cases hfault : w.fault? with
      | some fault => simp [ofTextWord?, ofText, hread, hwords, hfault', hfault]
      | none =>
          have hexists := Written.fault?_eq_none_iff.mp hfault
          obtain ⟨millis, hmillis, hexact⟩ := Written.Words.toMillis?_exact hv hsmall hexists
          simp [ofTextWord?, ofText, hread, hwords, hfault', hfault, hmillis, ← hexact]

/-- The reader accepts exactly the literals of the grammar of which the date, the
time of day and the offset exist, and gives the milliseconds from the start of
1970 to their instant, on the days that are counted from there; in words it has a
result for every text, and the same. -/
theorem ofText_reads_instants (text : String) :
    (∀ t, ofText text = .ok t ↔ ∃ w days, Written.Spells text.toList w ∧ w.Exists ∧
      w.date.DaysFromEpoch days ∧
      t.millis.toInt = days * 86400000 + w.clock.toMillis - w.clock.offset.toMillis) ∧
    ofTextWord? text = some (ofText text) := by
  refine ⟨fun t => ?_, ofTextWord?_eq text⟩
  rw [ofText_eq_ok_iff]
  constructor
  · rintro ⟨w, hw, hexists, ht⟩
    exact ⟨w, w.date.toDays, hw, hexists, (Date.daysFromEpoch_iff hexists.date).mpr rfl, ht⟩
  · rintro ⟨w, days, hw, hexists, hdays, ht⟩
    rw [Date.daysFromEpoch_iff hexists.date] at hdays
    subst hdays
    exact ⟨w, hw, hexists, ht⟩

end Datetime
end AccessPolicy

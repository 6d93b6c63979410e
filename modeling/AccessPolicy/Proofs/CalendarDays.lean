import AccessPolicy.Calendar
import Mathlib.Algebra.Group.Int.Defs
import Mathlib.Logic.Function.Iterate
import Mathlib.Tactic.IntervalCases
import Mathlib.Tactic.SplitIfs

/-!
The numbering of days is a bijection between the dates that exist and the
integers. Years are counted from March here, as the conversions do: the start of
a year and the length of a month are then regular, and the day after the last of
a month or of a year is the first of the next. Every day is reached from the
start of some era by going to the day after, so that it is enough to follow the
conversions from dates. Hence the number of a day counts the days from 1970-01-01,
and the days of a year are those from its first of January to before the next one.
-/

namespace AccessPolicy
namespace Date

theorem isLeapYear_iff {y : Int} :
    isLeapYear y ↔ y % 4 = 0 ∧ y % 100 ≠ 0 ∨ y % 400 = 0 := by
  simp [isLeapYear]

/-- The number of days from the first of March to the next one. -/
def yearLength (y : Int) : Int := if isLeapYear (y + 1) then 366 else 365

/-- Days from the first of March of year zero to that of the year `y`. -/
def marchStart (y : Int) : Int := y / 400 * daysPerEra + yearStart (y % 400)

/-- Days from the first of March to the end of the month that is `m` months
later. -/
def monthEnd (y m : Int) : Int := if m < 11 then monthStart (m + 1) else yearLength y

/-- Months from March to the month of the date. -/
def marchMonth (d : Date) : Int := ((d.month + 9) % 12 : Nat)

/-- Days from the first of March to the date. -/
def dayOfYear (d : Date) : Int := monthStart d.marchMonth + d.day - 1

theorem marchStart_eq (y : Int) : marchStart y = 365 * y + y / 4 - y / 100 + y / 400 := by
  unfold marchStart daysPerEra yearStart
  omega

theorem lt_yearLength_iff {y t : Int} :
    t < yearLength y ↔ t < 365 ∨ t = 365 ∧ isLeapYear (y + 1) := by
  rw [yearLength]
  split
  · next h =>
    simp only [h, and_true]
    omega
  · next h => simp [h]

theorem marchStart_succ (y : Int) : marchStart (y + 1) = marchStart y + yearLength y := by
  rw [marchStart_eq, marchStart_eq, yearLength]
  split
  · next h =>
    rw [isLeapYear_iff] at h
    omega
  · next h =>
    rw [isLeapYear_iff] at h
    omega

/-- Leap years repeat with the era. -/
theorem yearLength_emod (y : Int) : yearLength (y % 400) = yearLength y := by
  have h := marchStart_succ y
  have h' := marchStart_succ (y % 400)
  simp only [marchStart_eq] at h h'
  omega

theorem marchMonth_bounds (d : Date) : 0 ≤ d.marchMonth ∧ d.marchMonth ≤ 11 := by
  unfold marchMonth
  omega

theorem month_of_marchMonth {d : Date} (h : 1 ≤ d.month) (h' : d.month ≤ 12) :
    (if d.marchMonth < 10 then d.marchMonth + 3 else d.marchMonth - 9) = d.month := by
  unfold marchMonth
  split_ifs <;> omega

theorem year_of_marchYear (d : Date) :
    d.marchYear + (if (d.month : Int) ≤ 2 then 1 else 0) = d.year := by
  unfold marchYear
  split_ifs <;> omega

theorem daysInMonth_bounds (year : Int) (month : Nat) :
    1 ≤ daysInMonth year month ∧ daysInMonth year month ≤ 31 := by
  unfold daysInMonth
  cases isLeapYear year <;> split <;> decide

/-- A month ends where the next one starts, and February with its year. -/
theorem daysInMonth_eq {d : Date} (h : 1 ≤ d.month) (h' : d.month ≤ 12) :
    (daysInMonth d.year d.month : Int) =
      monthEnd d.marchYear d.marchMonth - monthStart d.marchMonth := by
  obtain ⟨year, month, day⟩ := d
  dsimp only at h h'
  by_cases hfeb : month = 2
  · subst hfeb
    have hmarch : marchYear ⟨year, 2, day⟩ + 1 = year := Int.sub_add_cancel year 1
    have hmonth : marchMonth ⟨year, 2, day⟩ = 11 := rfl
    rw [daysInMonth, hmonth, monthEnd, if_neg (Int.lt_irrefl 11), yearLength, hmarch]
    cases isLeapYear year <;> rfl
  · interval_cases month <;> simp_all [daysInMonth, marchMonth, monthEnd, monthStart]

theorem dayOfYear_bounds {d : Date} (h : d.Valid) :
    monthStart d.marchMonth ≤ d.dayOfYear ∧
      d.dayOfYear < monthEnd d.marchYear d.marchMonth := by
  obtain ⟨h1, h12, hday, hlast⟩ := h
  have hlength := daysInMonth_eq h1 h12
  rw [dayOfYear]
  omega

theorem dayOfYear_within_year {d : Date} (h : d.Valid) :
    0 ≤ d.dayOfYear ∧ d.dayOfYear < yearLength d.marchYear := by
  obtain ⟨hstart, hend⟩ := dayOfYear_bounds h
  have hm := marchMonth_bounds d
  have hleast : 365 ≤ yearLength d.marchYear := by
    unfold yearLength
    split_ifs <;> omega
  unfold monthEnd monthStart at *
  split_ifs at hend <;> omega

theorem toDays_eq (d : Date) :
    d.toDays = marchStart d.marchYear + d.dayOfYear - epochShift := by
  have hrest : d.marchYear - d.marchYear / 400 * 400 = d.marchYear % 400 := by omega
  unfold toDays marchStart dayOfYear marchMonth
  dsimp only
  rw [hrest]
  omega

theorem next_valid {d : Date} (h : d.Valid) : d.next.Valid := by
  obtain ⟨h1, h12, hday, hlast⟩ := h
  rw [next]
  split
  · next hlt => exact ⟨h1, h12, Nat.le_succ_of_le hday, hlt⟩
  · split
    · next hlt => exact ⟨Nat.le_add_left 1 _, hlt, Nat.le_refl 1, (daysInMonth_bounds _ _).1⟩
    · exact ⟨Nat.le_refl 1, (by decide : 1 ≤ 12), Nat.le_refl 1, (daysInMonth_bounds _ _).1⟩

/-- The number of the day after is the next number. -/
theorem toDays_next {d : Date} (h : d.Valid) : d.next.toDays = d.toDays + 1 := by
  obtain ⟨h1, h12, hday, hlast⟩ := h
  have hlength := daysInMonth_eq h1 h12
  rw [next]
  split
  · simp only [toDays_eq, marchYear, dayOfYear, marchMonth]
    omega
  · next hd =>
    have hend : d.dayOfYear + 1 = monthEnd d.marchYear d.marchMonth := by
      rw [dayOfYear]
      omega
    obtain ⟨year, month, day⟩ := d
    have hyear := marchStart_succ (year - 1)
    rw [Int.sub_add_cancel] at hyear
    dsimp only at *
    simp only [toDays_eq]
    -- after February comes the year that starts in March
    interval_cases month <;>
      simp_all [marchYear, marchMonth, monthEnd, monthStart, dayOfYear] <;> omega

/-- Every day has a date. -/
theorem exists_toDays_eq (n : Int) : ∃ d : Date, d.Valid ∧ d.toDays = n := by
  have hstart (k : Int) : (Date.mk (400 * k) 3 1).toDays = k * daysPerEra - epochShift := by
    rw [toDays_eq, marchStart_eq]
    simp only [marchYear, dayOfYear, marchMonth, monthStart, daysPerEra]
    omega
  obtain ⟨k, hk⟩ : ∃ k, (Date.mk (400 * k) 3 1).toDays ≤ n := by
    refine ⟨(n + epochShift) / daysPerEra, ?_⟩
    rw [hstart]
    unfold daysPerEra
    omega
  induction n, hk using Int.leInduction with
  | base =>
      exact ⟨_, ⟨(by decide : 1 ≤ 3), (by decide : 3 ≤ 12), Nat.le_refl 1,
        (daysInMonth_bounds _ _).1⟩, rfl⟩
  | succ n _ ih =>
      obtain ⟨d, hd, rfl⟩ := ih
      exact ⟨d.next, next_valid hd, toDays_next hd⟩

/-- Inside an era, centuries of 36524 days and cycles of four years of 1461 days
come before the single years; the last of each is one day shorter or longer, and
the four subtractions of `yearOfDay` make up for this. -/
theorem yearOfDay_yearStart_add {y t : Int} (hy : 0 ≤ y ∧ y < 400) (h0 : 0 ≤ t)
    (ht : t < yearLength y) : yearOfDay (yearStart y + t) = y := by
  rw [lt_yearLength_iff, isLeapYear_iff] at ht
  obtain ⟨c, q, k, hc, hq, hk, rfl⟩ : ∃ c q k : Int,
      (0 ≤ c ∧ c ≤ 3) ∧ (0 ≤ q ∧ q ≤ 24) ∧ (0 ≤ k ∧ k ≤ 3) ∧ y = 100 * c + 4 * q + k :=
    ⟨y / 100, y % 100 / 4, y % 4, by omega, by omega, by omega, by omega⟩
  have hday : yearStart (100 * c + 4 * q + k) + t = 36524 * c + 1461 * q + 365 * k + t := by
    unfold yearStart
    omega
  have hleap : t = 365 → k = 3 ∧ (q = 24 → c = 3) := by omega
  rw [hday, yearOfDay]
  by_cases hlast : c = 3 ∧ q = 24 ∧ k = 3 ∧ t = 365
  · obtain ⟨rfl, rfl, rfl, rfl⟩ := hlast
    decide
  · have hcycle : (36524 * c + 1461 * q + 365 * k + t) / 1460 =
        25 * c + q + (24 * c + q + 365 * k + t) / 1460 := by omega
    have hcentury : (36524 * c + 1461 * q + 365 * k + t) / 36524 = c := by omega
    have hera : (36524 * c + 1461 * q + 365 * k + t) / 146096 = 0 := by omega
    rw [hcycle, hcentury, hera]
    omega

theorem dayOfEra_toDays (d : Date) :
    d.toDays + epochShift - d.marchYear / 400 * daysPerEra =
      yearStart (d.marchYear % 400) + d.dayOfYear := by
  rw [toDays_eq, marchStart]
  omega

section

variable {d : Date} (h : d.Valid)
include h

theorem dayOfEra_bounds :
    0 ≤ yearStart (d.marchYear % 400) + d.dayOfYear ∧
      yearStart (d.marchYear % 400) + d.dayOfYear < daysPerEra := by
  obtain ⟨h0, hlt⟩ := dayOfYear_within_year h
  rw [lt_yearLength_iff, isLeapYear_iff] at hlt
  unfold yearStart daysPerEra
  omega

/-- The number of a valid date lies in the era of its year. -/
theorem era_toDays : (d.toDays + epochShift) / daysPerEra = d.marchYear / 400 := by
  have hday := dayOfEra_toDays d
  have hbounds := dayOfEra_bounds h
  unfold daysPerEra at *
  omega

theorem yearOfDay_toDays :
    yearOfDay (yearStart (d.marchYear % 400) + d.dayOfYear) = d.marchYear % 400 := by
  obtain ⟨h0, hlt⟩ := dayOfYear_within_year h
  rw [← yearLength_emod] at hlt
  exact yearOfDay_yearStart_add (by omega) h0 hlt

/-- The months from March are the multiples of 153 fifths of a day. -/
theorem marchMonth_of_dayOfYear : (5 * d.dayOfYear + 2) / 153 = d.marchMonth := by
  obtain ⟨hstart, hend⟩ := dayOfYear_bounds h
  have hm := marchMonth_bounds d
  have hlt := (dayOfYear_within_year h).2
  rw [lt_yearLength_iff] at hlt
  unfold monthEnd monthStart at *
  split_ifs at hend <;> omega

theorem ofDays_toDays : ofDays d.toDays = d := by
  have hday : d.dayOfYear - monthStart d.marchMonth + 1 = d.day := by
    rw [dayOfYear]
    omega
  have hyear : d.marchYear % 400 + d.marchYear / 400 * 400 = d.marchYear := by omega
  rw [ofDays, era_toDays h, dayOfEra_toDays, yearOfDay_toDays h, add_sub_cancel_left,
    marchMonth_of_dayOfYear h, month_of_marchMonth h.1 h.2.1, hday, hyear, year_of_marchYear,
    Int.toNat_natCast, Int.toNat_natCast]

end

theorem ofDays_valid (n : Int) : (ofDays n).Valid := by
  obtain ⟨d, hd, rfl⟩ := exists_toDays_eq n
  rwa [ofDays_toDays hd]

theorem toDays_ofDays (n : Int) : (ofDays n).toDays = n := by
  obtain ⟨d, hd, rfl⟩ := exists_toDays_eq n
  rw [ofDays_toDays hd]

theorem ofDays_succ (n : Int) : ofDays (n + 1) = (ofDays n).next := by
  have hvalid := ofDays_valid n
  have hnext := toDays_next hvalid
  rw [toDays_ofDays] at hnext
  rw [← hnext, ofDays_toDays (next_valid hvalid)]

theorem eq_iff_toDays_eq {d e : Date} (hd : d.Valid) (he : e.Valid) :
    d = e ↔ d.toDays = e.toDays := by
  refine ⟨congrArg toDays, fun h => ?_⟩
  rw [← ofDays_toDays hd, h, ofDays_toDays he]

theorem yearLength_ge (y : Int) : 365 ≤ yearLength y := by
  unfold yearLength
  split_ifs <;> omega

theorem marchStart_mono {y z : Int} (h : y ≤ z) : marchStart y ≤ marchStart z := by
  induction z, h using Int.leInduction with
  | base => exact Int.le_refl _
  | succ z _ ih =>
      have hlength := yearLength_ge z
      rw [marchStart_succ]
      omega

theorem dayOfYear_lt_iff {d : Date} (h : d.Valid) : d.dayOfYear < 306 ↔ 3 ≤ d.month := by
  obtain ⟨hstart, hend⟩ := dayOfYear_bounds h
  obtain ⟨h1, h12, -, -⟩ := h
  unfold marchMonth monthEnd monthStart at *
  split_ifs at hend <;> omega

/-- A year starts with the first of January. -/
theorem toDays_lt_iff_year_lt {d : Date} (h : d.Valid) (y : Int) :
    d.toDays < (Date.mk y 1 1).toDays ↔ d.year < y := by
  have hjanuary : (Date.mk y 1 1).toDays = marchStart (y - 1) + 306 - epochShift := by
    simp [toDays_eq, marchYear, dayOfYear, marchMonth, monthStart]
  have hspring := dayOfYear_lt_iff h
  obtain ⟨h0, hlt⟩ := dayOfYear_within_year h
  have hmarch : d.marchYear = if d.month ≤ 2 then d.year - 1 else d.year := rfl
  rw [toDays_eq, hjanuary]
  -- Years from March: the first of January is in the one before, 306 days after its start.
  rcases Int.lt_trichotomy d.marchYear (y - 1) with hbefore | hsame | hafter
  · have hmono := marchStart_mono (Int.add_one_le_of_lt hbefore)
    rw [marchStart_succ] at hmono
    split_ifs at hmarch <;> omega
  · rw [hsame]
    split_ifs at hmarch <;> omega
  · have hmono := marchStart_mono (Int.add_one_le_of_lt hafter)
    have hlength := yearLength_ge (y - 1)
    rw [marchStart_succ] at hmono
    split_ifs at hmarch <;> omega

/-- The date of the day zero. -/
def epoch : Date := ⟨1970, 1, 1⟩

/-- The date is `n` days after 1970-01-01, or `-n` days before it. -/
def DaysFromEpoch (d : Date) : Int → Prop
  | .ofNat n => next^[n] epoch = d
  | .negSucc n => next^[n + 1] d = epoch

theorem iterate_next {d : Date} (h : d.Valid) (n : Nat) :
    (next^[n] d).Valid ∧ (next^[n] d).toDays = d.toDays + n := by
  induction n with
  | zero => exact ⟨h, (Int.add_zero _).symm⟩
  | succ n ih =>
      obtain ⟨hvalid, hdays⟩ := ih
      rw [Function.iterate_succ_apply']
      exact ⟨next_valid hvalid, by rw [toDays_next hvalid, hdays, Int.natCast_succ, Int.add_assoc]⟩

/-- The number of a day counts the days from 1970-01-01. -/
theorem daysFromEpoch_iff {d : Date} (h : d.Valid) {n : Int} :
    d.DaysFromEpoch n ↔ d.toDays = n := by
  have hepoch : epoch.Valid := by decide
  have hzero : epoch.toDays = 0 := rfl
  cases n with
  | ofNat n =>
      obtain ⟨hvalid, hdays⟩ := iterate_next hepoch n
      rw [DaysFromEpoch, eq_iff_toDays_eq hvalid h, hdays, hzero, Int.zero_add]
      exact eq_comm
  | negSucc n =>
      obtain ⟨hvalid, hdays⟩ := iterate_next h (n + 1)
      rw [DaysFromEpoch, eq_iff_toDays_eq hvalid hepoch, hdays, hzero]
      omega

end Date
end AccessPolicy

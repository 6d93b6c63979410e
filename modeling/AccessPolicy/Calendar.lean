/-!
The proleptic Gregorian calendar on the integers. Days are numbered from
1970-01-01. Both conversions count from the first of March of year zero in eras
of 400 years, each of 146097 days; inside an era, years begin in March, so that
the leap day is the last day of its year.
-/

namespace AccessPolicy

/-- A year, a month and a day of the month, counted from one. -/
structure Date where
  year : Int
  month : Nat
  day : Nat
deriving DecidableEq, Repr

namespace Date

def isLeapYear (year : Int) : Bool :=
  (year % 4 == 0 && year % 100 != 0) || year % 400 == 0

def daysInMonth (year : Int) (month : Nat) : Nat :=
  match month with
  | 4 | 6 | 9 | 11 => 30
  | 2 => if isLeapYear year then 29 else 28
  | _ => 31

/-- The dates that exist. -/
def Valid (d : Date) : Prop :=
  1 ≤ d.month ∧ d.month ≤ 12 ∧ 1 ≤ d.day ∧ d.day ≤ daysInMonth d.year d.month

instance (d : Date) : Decidable d.Valid :=
  inferInstanceAs (Decidable (_ ∧ _ ∧ _ ∧ _))

/-- The date of the day after. -/
def next (d : Date) : Date :=
  if d.day < daysInMonth d.year d.month then { d with day := d.day + 1 }
  else if d.month < 12 then ⟨d.year, d.month + 1, 1⟩
  else ⟨d.year + 1, 1, 1⟩

/-- Days from the first of March of year zero to 1970-01-01. -/
def epochShift : Int := 719468

def daysPerEra : Int := 146097

/-- Days from the first of March to the first of the month that is `m` months
later. -/
def monthStart (m : Int) : Int := (153 * m + 2) / 5

/-- Days from the start of an era to the start of its year `y`. -/
def yearStart (y : Int) : Int := 365 * y + y / 4 - y / 100

/-- The year counted from March, to which January and February still belong. -/
def marchYear (d : Date) : Int := if d.month ≤ 2 then d.year - 1 else d.year

/-- The number of the day. -/
def toDays (d : Date) : Int :=
  let era := d.marchYear / 400
  let yearOfEra := d.marchYear - era * 400
  let dayOfYear := monthStart ((d.month + 9) % 12 : Nat) + d.day - 1
  era * daysPerEra + (yearStart yearOfEra + dayOfYear) - epochShift

/-- The year of an era that holds its day `d`: the day count without the leap
days that lie before it, in years of 365 days. -/
def yearOfDay (d : Int) : Int := (d - d / 1460 + d / 36524 - d / 146096) / 365

/-- The date of the day with the given number. -/
def ofDays (days : Int) : Date :=
  let shifted := days + epochShift
  let era := shifted / daysPerEra
  let dayOfEra := shifted - era * daysPerEra
  let yearOfEra := yearOfDay dayOfEra
  let dayOfYear := dayOfEra - yearStart yearOfEra
  let m := (5 * dayOfYear + 2) / 153
  let month := if m < 10 then m + 3 else m - 9
  { year := yearOfEra + era * 400 + if month ≤ 2 then 1 else 0
    month := month.toNat
    day := (dayOfYear - monthStart m + 1).toNat }

end Date
end AccessPolicy

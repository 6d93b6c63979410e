import AccessPolicy.Calendar
import AccessPolicy.Duration

/-!
Instants, as milliseconds since the start of 1970 in UTC. A literal is a date,
or a date and a time of day with an optional count of milliseconds and a UTC
offset. The text of an instant always has a time of day with milliseconds, in
UTC.
-/

namespace AccessPolicy

/-- A number of milliseconds since 1970-01-01T00:00:00Z. -/
structure Datetime where
  millis : Long
deriving DecidableEq, Repr

namespace Datetime

def millisPerDay : Int := 86400000

/-- Why a text denotes no instant. -/
inductive Fault where
  | malformed
  | noSuchDate
  | noSuchTime
  | noSuchOffset
deriving DecidableEq, Repr

def Fault.message (text : String) : Fault → String
  | .malformed => "`" ++ text ++ "` is not a valid datetime literal"
  | .noSuchDate => "`" ++ text ++ "` is not a valid calendar date"
  | .noSuchTime => "`" ++ text ++ "` has an invalid time of day"
  | .noSuchOffset => "`" ++ text ++ "` has an invalid UTC offset"

/-- A UTC offset as written. -/
structure Offset where
  negative : Bool
  hours : Nat
  minutes : Nat
deriving DecidableEq, Repr

/-- A time of day with its UTC offset, as written. -/
structure Clock where
  hour : Nat
  minute : Nat
  second : Nat
  millis : Nat
  offset : Offset
deriving DecidableEq, Repr

/-- A date with a time of day, as written. A lone date stands for its start in
UTC. -/
structure Written where
  date : Date
  clock : Clock
deriving DecidableEq, Repr

def Offset.utc : Offset := ⟨false, 0, 0⟩

def Clock.midnight : Clock := ⟨0, 0, 0, 0, .utc⟩

/-- A `Z`, or a sign with two digits of hours and two of minutes. -/
def Offset.ofText? : List Char → Option Offset
  | ['Z'] => some .utc
  | sign :: text =>
    if sign = '+' ∨ sign = '-' then do
      let (hours, text) ← Text.digits? 2 text
      let (minutes, text) ← Text.digits? 2 text
      if text = [] then some ⟨sign = '-', hours, minutes⟩ else none
    else none
  | [] => none

/-- Reads a point with three digits, if the text starts with a point. -/
def millis? : List Char → Option (Nat × List Char)
  | '.' :: text => Text.digits? 3 text
  | text => some (0, text)

/-- Reads `hh:mm:ss`, the milliseconds if there are any, and the offset. -/
def Clock.ofText? (text : List Char) : Option Clock := do
  let (hour, text) ← Text.digits? 2 text
  let (minute, text) ← Text.digits? 2 (← Text.expect? ':' text)
  let (second, text) ← Text.digits? 2 (← Text.expect? ':' text)
  let (millis, text) ← millis? text
  let offset ← Offset.ofText? text
  some { hour, minute, second, millis, offset }

/-- Reads `YYYY-MM-DD`, and after a `T` the time of day. -/
def Written.ofText? (text : List Char) : Option Written := do
  let (year, text) ← Text.digits? 4 text
  let (month, text) ← Text.digits? 2 (← Text.expect? '-' text)
  let (day, text) ← Text.digits? 2 (← Text.expect? '-' text)
  let date : Date := { year, month, day }
  match text with
  | [] => some ⟨date, .midnight⟩
  | 'T' :: text => (Clock.ofText? text).map (⟨date, ·⟩)
  | _ => none

/-- The signed milliseconds by which local time is ahead of UTC. -/
def Offset.toMillis (o : Offset) : Int :=
  let magnitude : Int := o.hours * 3600000 + o.minutes * 60000
  if o.negative then -magnitude else magnitude

/-- The milliseconds from midnight, in local time. -/
def Clock.toMillis (c : Clock) : Int :=
  c.hour * 3600000 + c.minute * 60000 + c.second * 1000 + c.millis

/-- The instant that is written, in milliseconds. -/
def Written.toMillis (w : Written) : Int :=
  w.date.toDays * millisPerDay + w.clock.toMillis - w.clock.offset.toMillis

/-- The first part that does not exist: the date, the time of day, the offset. -/
def Written.fault? (w : Written) : Option Fault :=
  if ¬ w.date.Valid then some .noSuchDate
  else if 23 < w.clock.hour ∨ 59 < w.clock.minute ∨ 59 < w.clock.second then some .noSuchTime
  else if 23 < w.clock.offset.hours ∨ 59 < w.clock.offset.minutes then some .noSuchOffset
  else none

def ofText (text : String) : Except Fault Datetime :=
  match Written.ofText? text.toList with
  | none => .error .malformed
  | some w =>
    match w.fault? with
    | some fault => .error fault
    | none => .ok ⟨Int64.ofInt w.toMillis⟩

/-- The number of the UTC day. -/
def day (t : Datetime) : Int := t.millis.toInt / millisPerDay

/-- Milliseconds since the start of the UTC day. -/
def millisOfDay (t : Datetime) : Int := t.millis.toInt % millisPerDay

/-- The year has at least four characters; the sign of a negative year counts
as one of them. -/
def yearText (year : Int) : String :=
  if year < 0 then "-" ++ Text.padded 3 year.natAbs else Text.padded 4 year.natAbs

def text (t : Datetime) : String :=
  let date := Date.ofDays t.day
  let time := t.millisOfDay.toNat
  yearText date.year ++ "-" ++ Text.padded 2 date.month ++ "-" ++ Text.padded 2 date.day ++
    "T" ++ Text.padded 2 (time / 3600000) ++ ":" ++ Text.padded 2 (time % 3600000 / 60000) ++
    ":" ++ Text.padded 2 (time % 60000 / 1000) ++ "." ++ Text.padded 3 (time % 1000) ++ "Z"

/-- The instant later by a duration. -/
def offset? (t : Datetime) (d : Duration) : Option Datetime :=
  (t.millis.add? d.millis).map Datetime.mk

/-- The duration from an earlier instant. -/
def durationSince? (t earlier : Datetime) : Option Duration :=
  (t.millis.sub? earlier.millis).map Duration.mk

/-- The start of the UTC day, unless it lies before the first instant. -/
def toDate? (t : Datetime) : Option Datetime :=
  (Long.ofInt? (t.day * millisPerDay)).map Datetime.mk

/-- The time since the start of the UTC day. -/
def toTime (t : Datetime) : Duration :=
  ⟨Int64.ofInt t.millisOfDay⟩

end Datetime
end AccessPolicy

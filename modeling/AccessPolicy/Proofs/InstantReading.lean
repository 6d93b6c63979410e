import AccessPolicy.Datetime
import AccessPolicy.Proofs.NumeralReading

/-!
The grammar of the literals of instants, and that the reader accepts exactly what
it derives. Every part has a fixed count of digits, so that a text has at most one
derivation.
-/

namespace AccessPolicy
namespace Text

theorem expect?_eq_some_iff {c : Char} {text rest : List Char} :
    expect? c text = some rest ↔ text = c :: rest := by
  cases text with
  | nil => simp [expect?]
  | cons d text =>
      rw [expect?]
      split <;> simp_all

end Text

namespace Datetime

open Text (Numeral)

/-- A `Z`, or a sign with two digits of hours and two of minutes. -/
inductive Offset.Spells : List Char → Offset → Prop where
  | utc : Spells ['Z'] .utc
  | signed {sign : Char} {hh mm : List Char} {hours minutes : Nat}
      (hsign : sign = '+' ∨ sign = '-') (hhours : Numeral 2 hours hh)
      (hminutes : Numeral 2 minutes mm) : Spells (sign :: (hh ++ mm)) ⟨sign = '-', hours, minutes⟩

/-- `hh:mm:ss` or `hh:mm:ss.SSS`, and the offset. -/
inductive Clock.Spells : List Char → Clock → Prop where
  | toSeconds {hh mm ss zone : List Char} {hour minute second : Nat} {offset : Offset}
      (hhour : Numeral 2 hour hh) (hminute : Numeral 2 minute mm) (hsecond : Numeral 2 second ss)
      (hzone : Offset.Spells zone offset) :
      Spells (hh ++ ':' :: (mm ++ ':' :: (ss ++ zone))) ⟨hour, minute, second, 0, offset⟩
  | toMillis {hh mm ss sss zone : List Char} {hour minute second millis : Nat} {offset : Offset}
      (hhour : Numeral 2 hour hh) (hminute : Numeral 2 minute mm) (hsecond : Numeral 2 second ss)
      (hmillis : Numeral 3 millis sss) (hzone : Offset.Spells zone offset) :
      Spells (hh ++ ':' :: (mm ++ ':' :: (ss ++ '.' :: (sss ++ zone))))
        ⟨hour, minute, second, millis, offset⟩

/-- `YYYY-MM-DD`, and a `T` and the time of day if there is one. -/
inductive Written.Spells : List Char → Written → Prop where
  | date {yyyy mm dd : List Char} {year month day : Nat} (hyear : Numeral 4 year yyyy)
      (hmonth : Numeral 2 month mm) (hday : Numeral 2 day dd) :
      Spells (yyyy ++ '-' :: (mm ++ '-' :: dd)) ⟨⟨year, month, day⟩, .midnight⟩
  | dateTime {yyyy mm dd time : List Char} {year month day : Nat} {clock : Clock}
      (hyear : Numeral 4 year yyyy) (hmonth : Numeral 2 month mm) (hday : Numeral 2 day dd)
      (hclock : Clock.Spells time clock) :
      Spells (yyyy ++ '-' :: (mm ++ '-' :: (dd ++ 'T' :: time))) ⟨⟨year, month, day⟩, clock⟩

theorem Offset.ofText?_eq_some_iff {text : List Char} {o : Offset} :
    ofText? text = some o ↔ Spells text o := by
  constructor
  · intro h
    unfold ofText? at h
    split at h
    · cases h
      exact .utc
    · split at h
      · next hsign =>
        simp only [Option.bind_eq_bind, Option.bind_eq_some_iff, Prod.exists,
          Text.digits?_eq_some_iff] at h
        obtain ⟨hours, _, ⟨hh, hhours, rfl⟩, minutes, _, ⟨mm, hminutes, rfl⟩, h⟩ := h
        split at h
        · next hend =>
          subst hend
          cases h
          rw [List.append_nil]
          exact .signed hsign hhours hminutes
        · cases h
      · cases h
    · cases h
  · intro h
    cases h with
    | utc => rfl
    | signed hsign hhours hminutes =>
        rcases hsign with rfl | rfl
        all_goals simp [ofText?, Text.digits?_append hhours, Text.digits?_numeral hminutes]

theorem millis?_point {sss : List Char} {n : Nat} (h : Numeral 3 n sss) (rest : List Char) :
    millis? ('.' :: (sss ++ rest)) = some (n, rest) :=
  Text.digits?_append h rest

theorem millis?_of_head?_ne {text : List Char} (h : text.head? ≠ some '.') :
    millis? text = some (0, text) := by
  unfold millis?
  split
  · exact absurd rfl h
  · rfl

theorem point_or_eq_of_millis? {text rest : List Char} {n : Nat}
    (h : millis? text = some (n, rest)) :
    (∃ sss, Numeral 3 n sss ∧ text = '.' :: (sss ++ rest)) ∨ n = 0 ∧ rest = text := by
  unfold millis? at h
  split at h
  · obtain ⟨sss, hsss, rfl⟩ := Text.digits?_eq_some_iff.mp h
    exact .inl ⟨sss, hsss, rfl⟩
  · cases h
    exact .inr ⟨rfl, rfl⟩

theorem Offset.Spells.head?_ne {text : List Char} {o : Offset} (h : Spells text o) :
    text.head? ≠ some '.' := by
  cases h with
  | utc => decide
  | signed hsign hhours hminutes => rcases hsign with rfl | rfl <;> simp

theorem Clock.ofText?_eq_some_iff {text : List Char} {c : Clock} :
    ofText? text = some c ↔ Spells text c := by
  constructor
  · intro h
    simp only [ofText?, Option.bind_eq_bind, Option.bind_eq_some_iff, Prod.exists,
      Text.digits?_eq_some_iff, Text.expect?_eq_some_iff, Offset.ofText?_eq_some_iff,
      Option.some.injEq] at h
    obtain ⟨hour, _, ⟨hh, hhour, rfl⟩, _, rfl, minute, _, ⟨mm, hminute, rfl⟩, _, rfl, second, _,
      ⟨ss, hsecond, rfl⟩, millis, zone, hmillis, offset, hzone, rfl⟩ := h
    rcases point_or_eq_of_millis? hmillis with ⟨sss, hsss, rfl⟩ | ⟨rfl, rfl⟩
    · exact .toMillis hhour hminute hsecond hsss hzone
    · exact .toSeconds hhour hminute hsecond hzone
  · intro h
    cases h with
    | toSeconds hhour hminute hsecond hzone =>
        have hmillis := millis?_of_head?_ne hzone.head?_ne
        have hoffset := Offset.ofText?_eq_some_iff.mpr hzone
        simp [ofText?, Text.digits?_append hhour, Text.digits?_append hminute,
          Text.digits?_append hsecond, Text.expect?, hmillis, hoffset]
    | toMillis hhour hminute hsecond hsss hzone =>
        have hoffset := Offset.ofText?_eq_some_iff.mpr hzone
        simp [ofText?, Text.digits?_append hhour, Text.digits?_append hminute,
          Text.digits?_append hsecond, Text.expect?, millis?_point hsss, hoffset]

theorem Written.ofText?_eq_some_iff {text : List Char} {w : Written} :
    ofText? text = some w ↔ Spells text w := by
  constructor
  · intro h
    simp only [ofText?, Option.bind_eq_bind, Option.bind_eq_some_iff, Prod.exists,
      Text.digits?_eq_some_iff, Text.expect?_eq_some_iff] at h
    obtain ⟨year, _, ⟨yyyy, hyear, rfl⟩, _, rfl, month, _, ⟨mm, hmonth, rfl⟩, _, rfl, day, rest,
      ⟨dd, hday, rfl⟩, h⟩ := h
    split at h
    · cases h
      rw [List.append_nil]
      exact .date hyear hmonth hday
    · obtain ⟨clock, hclock, rfl⟩ := Option.map_eq_some_iff.mp h
      exact .dateTime hyear hmonth hday (Clock.ofText?_eq_some_iff.mp hclock)
    · cases h
  · intro h
    cases h with
    | date hyear hmonth hday =>
        simp [ofText?, Text.digits?_append hyear, Text.digits?_append hmonth,
          Text.digits?_numeral hday, Text.expect?]
    | dateTime hyear hmonth hday hclock =>
        simp [ofText?, Text.digits?_append hyear, Text.digits?_append hmonth,
          Text.digits?_append hday, Text.expect?, Clock.ofText?_eq_some_iff.mpr hclock]

end Datetime
end AccessPolicy

import AccessPolicy.Decimal
import AccessPolicy.Proofs.NumeralReading
import Mathlib.Algebra.Order.Field.Rat
import Mathlib.Tactic.FieldSimp
import Mathlib.Tactic.Ring

/-!
The grammar of the literals of decimals, which of them are read, and that the text of
a decimal is one of them. With at most four digits after the point a literal denotes
a whole number of ten-thousandths. The reader finds it in words of 128 bits, and where
there is no such word on the way, the number is no word of 64 bits either.
-/

namespace AccessPolicy

/-- A signed word of 128 bits. -/
abbrev Wide := BitVec 128

namespace Wide

/-- An integer that some word denotes. -/
def InRange (n : Int) : Prop := -2 ^ 127 ≤ n ∧ n < 2 ^ 127

-- The difference of an integer and such a bound would unfold in unary.
instance (n : Int) : Decidable (InRange n) :=
  decidable_of_iff (n.toNat < 2 ^ 127 ∧ (-n).toNat ≤ 2 ^ 127) <| by
    unfold InRange
    omega

/-- The word for an integer, if there is one. -/
def ofInt? (n : Int) : Option Wide :=
  if InRange n then some (BitVec.ofInt 128 n) else none

def add? (a b : Wide) : Option Wide := ofInt? (a.toInt + b.toInt)

def mul? (a b : Wide) : Option Wide := ofInt? (a.toInt * b.toInt)

def neg? (a : Wide) : Option Wide := ofInt? (-a.toInt)

theorem toInt_ofInt {n : Int} (h : InRange n) : (BitVec.ofInt 128 n).toInt = n :=
  BitVec.toInt_ofInt_eq_self (by decide) h.1 h.2

theorem ofInt?_of_inRange {n : Int} (h : InRange n) : ofInt? n = some (BitVec.ofInt 128 n) :=
  if_pos h

theorem ofInt?_eq_none_iff {n : Int} : ofInt? n = none ↔ ¬ InRange n := by
  rw [ofInt?]
  split <;> simp_all

end Wide

namespace Decimal

open Text (Numeral)

/-- The number before the point, and the count and the number of the digits after it. -/
structure Magnitude where
  whole : Nat
  places : Nat
  fraction : Nat
deriving DecidableEq, Repr

/-- Digits, a point, and one to four digits. -/
inductive Magnitude.Spells : List Char → Magnitude → Prop where
  | digits {before after : List Char} {count whole places fraction : Nat}
      (hwhole : Numeral (count + 1) whole before) (hfraction : Numeral places fraction after)
      (hpos : 0 < places) (hle : places ≤ 4) :
      Spells (before ++ '.' :: after) ⟨whole, places, fraction⟩

/-- What a literal says. -/
structure Written where
  negative : Bool
  magnitude : Magnitude
deriving DecidableEq, Repr

/-- A minus sign if the number is negative, and the magnitude. -/
inductive Written.Spells : List Char → Written → Prop where
  | unsigned {text : List Char} {m : Magnitude} (hm : m.Spells text) : Spells text ⟨false, m⟩
  | negative {text : List Char} {m : Magnitude} (hm : m.Spells text) : Spells ('-' :: text) ⟨true, m⟩

/-- The exact number that a literal denotes. -/
def Written.value (w : Written) : Rat :=
  let magnitude : Rat := w.magnitude.whole + w.magnitude.fraction / 10 ^ w.magnitude.places
  if w.negative then -magnitude else magnitude

def Magnitude.tenThousandths (m : Magnitude) : Nat :=
  m.whole * 10000 + m.fraction * 10 ^ (4 - m.places)

def Written.tenThousandths (w : Written) : Int :=
  if w.negative then -(w.magnitude.tenThousandths : Int) else w.magnitude.tenThousandths

theorem Magnitude.Spells.places_le {text : List Char} {m : Magnitude} (h : m.Spells text) :
    m.places ≤ 4 := by
  cases h with
  | digits _ _ _ hle => exact hle

theorem Magnitude.Spells.head?_ne {text : List Char} {m : Magnitude} (h : m.Spells text) :
    text.head? ≠ some '-' := by
  cases h with
  | digits hwhole _ _ _ =>
      obtain ⟨c, rest, rfl, hc⟩ := hwhole.exists_cons
      rintro ⟨⟩
      cases hc

theorem Written.Spells.places_le {text : List Char} {w : Written} (h : Spells text w) :
    w.magnitude.places ≤ 4 := by
  cases h with
  | unsigned hm | negative hm => exact hm.places_le

/-- No place is lost. -/
theorem Written.tenThousandths_eq {w : Written} (h : w.magnitude.places ≤ 4) :
    (w.tenThousandths : Rat) = w.value * 10000 := by
  have hpow : (10 : Rat) ^ (4 - w.magnitude.places) * 10 ^ w.magnitude.places = 10000 := by
    rw [← pow_add, Nat.sub_add_cancel h]
    norm_num
  have hfraction : (w.magnitude.fraction : Rat) * 10 ^ (4 - w.magnitude.places) =
      w.magnitude.fraction / 10 ^ w.magnitude.places * 10000 := by
    rw [← hpow]
    field_simp
  have hmagnitude : (w.magnitude.tenThousandths : Rat) =
      (w.magnitude.whole + w.magnitude.fraction / 10 ^ w.magnitude.places) * 10000 := by
    rw [Magnitude.tenThousandths, add_mul, ← hfraction]
    push_cast
    rfl
  rw [tenThousandths, value]
  split
  · push_cast
    rw [hmagnitude, neg_mul]
  · exact_mod_cast hmagnitude

/-- The digits before and after the point. -/
def cut? (text : List Char) : Option (List Char × List Char) :=
  match text.span Char.isDigit with
  | (before, '.' :: after) =>
    if before ≠ [] ∧ after ≠ [] ∧ after.length ≤ 4 ∧ after.all Char.isDigit then
      some (before, after)
    else
      none
  | _ => none

/-- The sign of a literal, and the digits before and after its point. -/
def parts? : List Char → Option (Bool × List Char × List Char)
  | '-' :: text => (cut? text).map (true, ·)
  | text => (cut? text).map (false, ·)

def Magnitude.ofDigits (before after : List Char) : Magnitude :=
  ⟨Text.natOfDigits before, after.length, Text.natOfDigits after⟩

theorem of_cut?_eq {text before after : List Char} (h : cut? text = some (before, after)) :
    text = before ++ '.' :: after ∧ (∃ count, Numeral (count + 1) (Text.natOfDigits before) before) ∧
      Numeral after.length (Text.natOfDigits after) after ∧ 0 < after.length ∧ after.length ≤ 4 := by
  unfold cut? at h
  split at h
  · next hspan =>
    obtain ⟨hwhole, htext⟩ := Text.of_span_isDigit_eq hspan
    split at h
    · next hshape =>
      cases h
      obtain ⟨hbefore, hafter, hle, hdigits⟩ := hshape
      exact ⟨htext, Text.exists_numeral_of_ne_nil hbefore hwhole,
        ⟨rfl, List.all_eq_true.mp hdigits, rfl⟩, List.length_pos_iff.mpr hafter, hle⟩
    · cases h
  · cases h

theorem Magnitude.spells_iff {text : List Char} {m : Magnitude} :
    m.Spells text ↔ ∃ before after, cut? text = some (before, after) ∧ m = ofDigits before after := by
  have hpoint (after : List Char) : ∀ c ∈ ('.' :: after).head?, ¬ c.isDigit := by simp
  constructor
  · intro h
    cases h with
    | @digits before after _ _ _ _ hwhole hfraction hpos hle =>
        obtain ⟨c, rest, hcons, -⟩ := hwhole.exists_cons
        have hbefore : before ≠ [] := hcons ▸ List.cons_ne_nil c rest
        obtain ⟨rfl, hdigits, rfl⟩ := hfraction
        refine ⟨before, after, ?_, by rw [ofDigits, hwhole.value_eq]⟩
        rw [cut?, Text.span_isDigit_append hwhole.isDigit (hpoint after)]
        exact if_pos ⟨hbefore, List.length_pos_iff.mp hpos, hle, List.all_eq_true.mpr hdigits⟩
  · rintro ⟨before, after, hcut, rfl⟩
    obtain ⟨rfl, ⟨count, hwhole⟩, hfraction, hpos, hle⟩ := of_cut?_eq hcut
    exact .digits hwhole hfraction hpos hle

theorem exists_cut?_of_parts? {text before after : List Char} {negative : Bool}
    (h : parts? text = some (negative, before, after)) :
    ∃ rest, cut? rest = some (before, after) ∧ text = if negative then '-' :: rest else rest := by
  unfold parts? at h
  split at h <;> obtain ⟨_, hcut, heq⟩ := Option.map_eq_some_iff.mp h <;> cases heq
  all_goals exact ⟨_, hcut, rfl⟩

theorem Written.spells_iff {text : List Char} {w : Written} :
    Spells text w ↔ ∃ before after, parts? text = some (w.negative, before, after) ∧
      w.magnitude = .ofDigits before after := by
  constructor
  · intro h
    cases h with
    | unsigned hm =>
        obtain ⟨before, after, hcut, rfl⟩ := Magnitude.spells_iff.mp hm
        refine ⟨before, after, ?_, rfl⟩
        unfold parts?
        split
        · exact absurd rfl hm.head?_ne
        · rw [hcut]
          rfl
    | negative hm =>
        obtain ⟨before, after, hcut, rfl⟩ := Magnitude.spells_iff.mp hm
        exact ⟨before, after, by rw [parts?, hcut]; rfl, rfl⟩
  · rintro ⟨before, after, hparts, hm⟩
    obtain ⟨negative, m⟩ := w
    obtain ⟨rest, hcut, rfl⟩ := exists_cut?_of_parts? hparts
    have hspells := Magnitude.spells_iff.mpr ⟨before, after, hcut, hm⟩
    cases negative with
    | false => exact .unsigned hspells
    | true => exact .negative hspells

/-- Zeros behind the digits after the point make them ten-thousandths. -/
theorem scaled_eq {text before after : List Char} (h : cut? text = some (before, after)) :
    scaled before after = (Magnitude.ofDigits before after).tenThousandths := by
  obtain ⟨-, -, hfraction, -, hle⟩ := of_cut?_eq h
  rw [scaled, (hfraction.rightpad hle).value_eq]
  rfl

theorem magnitude?_eq (text : List Char) :
    magnitude? text = (cut? text).map fun (before, after) => scaled before after := by
  rw [magnitude?, cut?]
  rcases text.span Char.isDigit with ⟨before, _ | ⟨c, after⟩⟩
  · rfl
  · by_cases hc : c = '.'
    · subst hc
      by_cases hshape : before ≠ [] ∧ after ≠ [] ∧ after.length ≤ 4 ∧ after.all Char.isDigit
      · simp only [if_pos hshape, Option.map_some]
      · simp only [if_neg hshape, Option.map_none]
    · simp [hc]

/-- The number that the digits and the sign in front of them denote. -/
def signed (negative : Bool) (before after : List Char) : Int :=
  if negative then -(scaled before after : Int) else scaled before after

theorem tenThousandths?_eq (text : List Char) :
    tenThousandths? text =
      (parts? text).map fun (negative, before, after) => signed negative before after := by
  unfold tenThousandths? parts?
  split
  · next text =>
    simp only [magnitude?_eq]
    cases cut? text <;> rfl
  · simp only [magnitude?_eq]
    cases cut? text <;> rfl

theorem signed_eq {text before after : List Char} {w : Written}
    (h : parts? text = some (w.negative, before, after)) (hm : w.magnitude = .ofDigits before after) :
    signed w.negative before after = w.tenThousandths := by
  obtain ⟨rest, hcut, -⟩ := exists_cut?_of_parts? h
  rw [signed, scaled_eq hcut, ← hm]
  rfl

theorem tenThousandths?_eq_some_iff {text : List Char} {n : Int} :
    tenThousandths? text = some n ↔ ∃ w, Written.Spells text w ∧ w.tenThousandths = n := by
  rw [tenThousandths?_eq, Option.map_eq_some_iff]
  constructor
  · rintro ⟨⟨negative, before, after⟩, hparts, rfl⟩
    exact ⟨⟨negative, .ofDigits before after⟩,
      Written.spells_iff.mpr ⟨before, after, hparts, rfl⟩, (signed_eq hparts rfl).symm⟩
  · rintro ⟨w, hw, rfl⟩
    obtain ⟨before, after, hparts, hm⟩ := Written.spells_iff.mp hw
    exact ⟨_, hparts, signed_eq hparts hm⟩

/-- A number of ten-thousandths as a decimal. -/
def narrow (n : Int) : Except Fault Decimal :=
  match Long.ofInt? n with
  | some raw => .ok ⟨raw⟩
  | none => .error .outOfRange

theorem narrow_eq_ok_iff {n : Int} {d : Decimal} : narrow n = .ok d ↔ d.raw.toInt = n := by
  rw [← Long.ofInt?_eq_some_iff, narrow]
  obtain ⟨raw⟩ := d
  cases Long.ofInt? n <;> simp

theorem narrow_of_not_inRange {n : Int} (h : ¬ Long.InRange n) : narrow n = .error .outOfRange := by
  rw [narrow, Long.ofInt?_eq_none_iff.mpr h]

theorem ofText_eq (text : String) :
    ofText text = match tenThousandths? text.toList with
      | none => .error .malformed
      | some n => narrow n := by
  unfold ofText
  cases tenThousandths? text.toList <;> rfl

theorem ofText_eq_ok_iff {text : String} {d : Decimal} :
    ofText text = .ok d ↔
      ∃ w, Written.Spells text.toList w ∧ w.tenThousandths = d.raw.toInt := by
  rw [← tenThousandths?_eq_some_iff, ofText_eq]
  cases tenThousandths? text.toList with
  | none => simp
  | some n => rw [Option.some.injEq, narrow_eq_ok_iff, eq_comm]

def magnitudeWord? (whole fraction : Wide) : Option Wide := do
  Wide.add? (← Wide.mul? whole 10000) fraction

/-- The decimal with the given sign and digits, computed in words. A number before the
point or a magnitude without a word is out of range; the number after the point and the
change of the sign have to have one. -/
def ofPartsWord? (negative : Bool) (before after : List Char) : Option (Except Fault Decimal) :=
  match Wide.ofInt? (Text.natOfDigits before) with
  | none => some (.error .outOfRange)
  | some whole => do
    let fraction ← Wide.ofInt? (Text.natOfDigits (List.rightpad 4 '0' after))
    match magnitudeWord? whole fraction with
    | none => some (.error .outOfRange)
    | some magnitude =>
      (if negative then Wide.neg? magnitude else some magnitude).map (narrow ·.toInt)

/-- The reading of a decimal in words. -/
def ofTextWord? (text : String) : Option (Except Fault Decimal) :=
  match parts? text.toList with
  | none => some (.error .malformed)
  | some (negative, before, after) => ofPartsWord? negative before after

theorem magnitudeWord?_eq {a b : Wide} {whole fraction : Nat} (ha : a.toInt = whole)
    (hb : b.toInt = fraction) :
    magnitudeWord? a b = Wide.ofInt? (whole * 10000 + fraction : Nat) := by
  have hscale : (10000 : Wide).toInt = 10000 := rfl
  rw [magnitudeWord?, Wide.mul?, ha, hscale]
  by_cases h : Wide.InRange (whole * 10000)
  · rw [Wide.ofInt?_of_inRange h, Option.bind_eq_bind, Option.bind_some, Wide.add?,
      Wide.toInt_ofInt h, hb]
    rfl
  · have hsum : ¬ Wide.InRange (whole * 10000 + fraction : Nat) := by
      unfold Wide.InRange at *
      omega
    rw [Wide.ofInt?_eq_none_iff.mpr h, Wide.ofInt?_eq_none_iff.mpr hsum]
    rfl

theorem signed_inRange {negative : Bool} {before after : List Char}
    (h : Long.InRange (signed negative before after)) : Wide.InRange (scaled before after) := by
  unfold signed Long.InRange Wide.InRange at *
  split at h <;> omega

theorem ofPartsWord?_of_inRange {negative : Bool} {before after : List Char}
    (h : Wide.InRange (scaled before after)) :
    ofPartsWord? negative before after = some (narrow (signed negative before after)) := by
  have hwhole : Wide.InRange (Text.natOfDigits before) := by
    unfold scaled Wide.InRange at *
    omega
  have hfraction : Wide.InRange (Text.natOfDigits (List.rightpad 4 '0' after)) := by
    unfold scaled Wide.InRange at *
    omega
  have hneg : Wide.InRange (-(scaled before after)) := by
    unfold Wide.InRange at *
    omega
  have hmagnitude := magnitudeWord?_eq (Wide.toInt_ofInt hwhole) (Wide.toInt_ofInt hfraction)
  rw [← scaled, Wide.ofInt?_of_inRange h] at hmagnitude
  rw [ofPartsWord?, Wide.ofInt?_of_inRange hwhole, Wide.ofInt?_of_inRange hfraction]
  simp only [Option.bind_eq_bind, Option.bind_some, hmagnitude, Wide.neg?,
    Wide.toInt_ofInt h, Wide.ofInt?_of_inRange hneg]
  cases negative with
  | false => exact congrArg (some <| narrow ·) (Wide.toInt_ofInt h)
  | true => exact congrArg (some <| narrow ·) (Wide.toInt_ofInt hneg)

/-- The number before the point has no word, or else the magnitude has none. -/
theorem ofPartsWord?_of_not_inRange {negative : Bool} {before after : List Char}
    (hfraction : Wide.InRange (Text.natOfDigits (List.rightpad 4 '0' after)))
    (h : ¬ Wide.InRange (scaled before after)) :
    ofPartsWord? negative before after = some (.error .outOfRange) := by
  rw [ofPartsWord?]
  by_cases hwhole : Wide.InRange (Text.natOfDigits before)
  · have hmagnitude := magnitudeWord?_eq (Wide.toInt_ofInt hwhole) (Wide.toInt_ofInt hfraction)
    rw [← scaled, Wide.ofInt?_eq_none_iff.mpr h] at hmagnitude
    rw [Wide.ofInt?_of_inRange hwhole, Wide.ofInt?_of_inRange hfraction]
    simp only [Option.bind_eq_bind, Option.bind_some, hmagnitude]
  · rw [Wide.ofInt?_eq_none_iff.mpr hwhole]

theorem ofPartsWord?_eq {negative : Bool} {before after : List Char}
    (h : Text.natOfDigits (List.rightpad 4 '0' after) < 10000) :
    ofPartsWord? negative before after = some (narrow (signed negative before after)) := by
  by_cases hscaled : Wide.InRange (scaled before after)
  · exact ofPartsWord?_of_inRange hscaled
  · rw [narrow_of_not_inRange (mt signed_inRange hscaled)]
    exact ofPartsWord?_of_not_inRange ⟨by omega, by omega⟩ hscaled

theorem ofTextWord?_eq (text : String) : ofTextWord? text = some (ofText text) := by
  rw [ofTextWord?, ofText_eq, tenThousandths?_eq]
  cases hparts : parts? text.toList with
  | none => rfl
  | some parts =>
      obtain ⟨negative, before, after⟩ := parts
      obtain ⟨rest, hcut, -⟩ := exists_cut?_of_parts? hparts
      obtain ⟨-, -, hfraction, -, hle⟩ := of_cut?_eq hcut
      have hlt := (hfraction.rightpad hle).lt
      rw [← (hfraction.rightpad hle).value_eq] at hlt
      exact ofPartsWord?_eq hlt

/-- What the text of a decimal says. -/
def written (d : Decimal) : Written :=
  ⟨d.raw.toInt < 0, d.raw.toInt.natAbs / 10000, 4, d.raw.toInt.natAbs % 10000⟩

theorem spells_text (d : Decimal) : Written.Spells d.text.toList d.written := by
  obtain ⟨count, hwhole⟩ := Text.exists_numeral_toDigits (d.raw.toInt.natAbs / 10000)
  have hlt : d.raw.toInt.natAbs % 10000 < 10 ^ 4 := Nat.mod_lt _ (by decide)
  have hmagnitude : d.written.magnitude.Spells
      (Nat.toDigits 10 (d.raw.toInt.natAbs / 10000) ++
        '.' :: Text.paddedDigits 4 (d.raw.toInt.natAbs % 10000)) :=
    .digits hwhole (Text.numeral_paddedDigits (by decide) hlt) (by decide) (by decide)
  have htext : d.text.toList = (if d.raw.toInt < 0 then "-" else "").toList ++
      (Nat.toDigits 10 (d.raw.toInt.natAbs / 10000) ++
        '.' :: Text.paddedDigits 4 (d.raw.toInt.natAbs % 10000)) := by
    simp [text, Text.padded, Nat.repr]
  have hwritten : d.written = ⟨d.raw.toInt < 0, d.written.magnitude⟩ := rfl
  rw [htext, hwritten]
  split
  · next hneg =>
    rw [decide_eq_true hneg]
    exact .negative hmagnitude
  · next hpos =>
    rw [decide_eq_false hpos]
    exact .unsigned hmagnitude

theorem written_tenThousandths (d : Decimal) : d.written.tenThousandths = d.raw.toInt := by
  simp only [written, Written.tenThousandths, Magnitude.tenThousandths, decide_eq_true_eq]
  split <;> omega

/-- The reader accepts exactly the literals of the grammar of which the exact number is a
whole number of ten-thousandths and this is a word, and gives the word; in words it has a
result for every text, and the same. The text of a decimal is read back as the decimal. -/
theorem literals_exact :
    (∀ text d, ofText text = .ok d ↔ ∃ (w : Written) (n : Int), Written.Spells text.toList w ∧
      n = w.value * 10000 ∧ Long.InRange n ∧ d.raw.toInt = n) ∧
    (∀ text, ofTextWord? text = some (ofText text)) ∧ ∀ d : Decimal, ofText d.text = .ok d := by
  refine ⟨fun text d => ?_, ofTextWord?_eq, fun d => ?_⟩
  · rw [ofText_eq_ok_iff]
    constructor
    · rintro ⟨w, hw, hraw⟩
      refine ⟨w, w.tenThousandths, hw, Written.tenThousandths_eq hw.places_le, ?_, hraw.symm⟩
      exact hraw ▸ Long.inRange_toInt d.raw
    · rintro ⟨w, n, hw, hn, -, rfl⟩
      refine ⟨w, hw, ?_⟩
      rw [← Written.tenThousandths_eq hw.places_le, Rat.intCast_inj] at hn
      exact hn.symm
  · exact ofText_eq_ok_iff.mpr ⟨d.written, spells_text d, written_tenThousandths d⟩

end Decimal
end AccessPolicy

import AccessPolicy.Duration
import AccessPolicy.Proofs.NumeralReading

/-!
The grammar of the literals of durations, and which of them are read. An amount
ends with the symbol of its unit and the next one starts with a digit, so that a
text names each unit in one way only. The sum of the amounts is taken without the
sign: it is a word whenever the signed sum is, except for the least word.
-/

namespace AccessPolicy

open Text (Numeral)

/-- Some of the units in their order, each with a numeral in front of its symbol. -/
inductive Duration.SpellsAmounts : List TimeUnit → List Char → List (TimeUnit × Nat) → Prop where
  | nil : SpellsAmounts [] [] []
  | skip (unit : TimeUnit) {units : List TimeUnit} {text : List Char}
      {amounts : List (TimeUnit × Nat)} (rest : SpellsAmounts units text amounts) :
      SpellsAmounts (unit :: units) text amounts
  | amount (unit : TimeUnit) {units : List TimeUnit} {text digits : List Char}
      {amounts : List (TimeUnit × Nat)} {count n : Nat} (hdigits : Numeral (count + 1) n digits)
      (rest : SpellsAmounts units text amounts) :
      SpellsAmounts (unit :: units) (digits ++ (unit.symbol ++ text)) ((unit, n) :: amounts)

/-- A minus sign if the duration is negative, and amounts of units. -/
inductive Duration.Spells : List Char → Bool → List (TimeUnit × Nat) → Prop where
  | unsigned {text : List Char} {amounts : List (TimeUnit × Nat)}
      (hamounts : SpellsAmounts TimeUnit.descending text amounts) : Spells text false amounts
  | negative {text : List Char} {amounts : List (TimeUnit × Nat)}
      (hamounts : SpellsAmounts TimeUnit.descending text amounts) : Spells ('-' :: text) true amounts

namespace TimeUnit

theorem symbol_not_isDigit (unit : TimeUnit) (text : List Char) :
    ∀ c ∈ (unit.symbol ++ text).head?, ¬ c.isDigit := by
  cases unit <;> simp [symbol]

theorem dropSymbol?_symbol {unit other : TimeUnit} {text : List Char}
    (h : text.head? ≠ some 's') :
    unit.dropSymbol? (other.symbol ++ text) = if other = unit then some text else none := by
  cases text with
  | nil => cases unit <;> cases other <;> rfl
  | cons c text =>
      have hc : c ≠ 's' := by simpa using h
      cases unit <;> cases other <;> simp [dropSymbol?, symbol, hc]

theorem eq_symbol_append_of_dropSymbol? {unit : TimeUnit} {text rest : List Char}
    (h : unit.dropSymbol? text = some rest) : text = unit.symbol ++ rest := by
  unfold dropSymbol? at h
  split at h <;> cases h <;> rfl

theorem amount?_spelled {unit other : TimeUnit} {count n : Nat} {digits text : List Char}
    (hdigits : Numeral (count + 1) n digits) (h : text.head? ≠ some 's') :
    unit.amount? (digits ++ (other.symbol ++ text)) =
      if other = unit then some (n, text) else none := by
  obtain ⟨c, rest, hcons, -⟩ := hdigits.exists_cons
  have hne : digits ≠ [] := hcons ▸ List.cons_ne_nil c rest
  rw [amount?, Text.span_isDigit_append hdigits.isDigit (symbol_not_isDigit other text)]
  simp only [hne, if_false, dropSymbol?_symbol h, hdigits.value_eq]
  split <;> rfl

theorem exists_numeral_of_amount? {unit : TimeUnit} {text rest : List Char} {n : Nat}
    (h : unit.amount? text = some (n, rest)) :
    ∃ count digits, Numeral (count + 1) n digits ∧ text = digits ++ (unit.symbol ++ rest) := by
  rw [amount?, List.span_eq_takeWhile_dropWhile] at h
  dsimp only at h
  split at h
  · cases h
  · next hne =>
    obtain ⟨rest', hdrop, heq⟩ := Option.map_eq_some_iff.mp h
    cases heq
    obtain ⟨count, hdigits⟩ := Text.exists_numeral_of_ne_nil hne fun _ => List.mem_takeWhile_imp
    refine ⟨count, _, hdigits, ?_⟩
    rw [← eq_symbol_append_of_dropSymbol? hdrop, List.takeWhile_append_dropWhile]

end TimeUnit

namespace Duration

/-- Amounts start with a digit. -/
theorem SpellsAmounts.head?_ne {units : List TimeUnit} {text : List Char}
    {amounts : List (TimeUnit × Nat)} (h : SpellsAmounts units text amounts) {c : Char}
    (hc : ¬ c.isDigit) : text.head? ≠ some c := by
  induction h with
  | nil => simp
  | skip _ _ ih => exact ih
  | amount _ hdigits _ _ =>
      obtain ⟨d, rest, rfl, hd⟩ := hdigits.exists_cons
      rintro h
      cases h
      exact hc hd

theorem amount?_of_not_mem {unit : TimeUnit} {units : List TimeUnit} {text : List Char}
    {amounts : List (TimeUnit × Nat)} (h : SpellsAmounts units text amounts)
    (hunit : unit ∉ units) : unit.amount? text = none := by
  induction h with
  | nil => rfl
  | skip _ _ ih => exact ih (mt (List.mem_cons_of_mem _) hunit)
  | amount other hdigits rest _ =>
      rw [TimeUnit.amount?_spelled hdigits (rest.head?_ne (by decide)), if_neg]
      rintro rfl
      exact hunit List.mem_cons_self

theorem amounts?_eq_some_iff {units : List TimeUnit} (hunits : units.Nodup) {text : List Char}
    {amounts : List (TimeUnit × Nat)} :
    amounts? units text = some amounts ↔ SpellsAmounts units text amounts := by
  constructor
  · intro h
    induction units generalizing text amounts with
    | nil =>
        cases text with
        | nil => cases h; exact .nil
        | cons c text => cases h
    | cons unit units ih =>
        rw [amounts?] at h
        split at h
        · next n rest hamount =>
          obtain ⟨rest', hrest, rfl⟩ := Option.map_eq_some_iff.mp h
          obtain ⟨count, digits, hdigits, rfl⟩ := TimeUnit.exists_numeral_of_amount? hamount
          exact .amount unit hdigits (ih hunits.tail hrest)
        · exact .skip unit (ih hunits.tail h)
  · intro h
    induction h with
    | nil => rfl
    | skip unit rest ih =>
        -- The amounts that follow are of other units, and none of them is taken for this one.
        rw [List.nodup_cons] at hunits
        rw [amounts?, amount?_of_not_mem rest hunits.1]
        exact ih hunits.2
    | amount unit hdigits rest ih =>
        rw [amounts?, TimeUnit.amount?_spelled hdigits (rest.head?_ne (by decide)), if_pos rfl]
        exact Option.map_eq_some_iff.mpr ⟨_, ih hunits.tail, rfl⟩

theorem parts?_eq_some_iff {text : List Char} {negative : Bool}
    {amounts : List (TimeUnit × Nat)} :
    parts? text = some (negative, amounts) ↔ Spells text negative amounts := by
  have hunits : TimeUnit.descending.Nodup := by decide
  constructor
  · intro h
    unfold parts? at h
    split at h <;> obtain ⟨_, hamounts, heq⟩ := Option.map_eq_some_iff.mp h <;> cases heq
    · exact .negative ((amounts?_eq_some_iff hunits).mp hamounts)
    · exact .unsigned ((amounts?_eq_some_iff hunits).mp hamounts)
  · intro h
    cases h with
    | unsigned hamounts =>
        have hread := (amounts?_eq_some_iff hunits).mpr hamounts
        unfold parts?
        split
        · exact absurd rfl (hamounts.head?_ne (c := '-') (by decide))
        · rw [hread]
          rfl
    | negative hamounts =>
        rw [parts?, (amounts?_eq_some_iff hunits).mpr hamounts]
        rfl

/-- The number of milliseconds with its sign. -/
def signedTotal (negative : Bool) (amounts : List (TimeUnit × Nat)) : Int :=
  if negative then -(total amounts : Int) else total amounts

/-- The sum of the amounts in words, each of them read and multiplied by its unit,
without a result where one of the steps has none. -/
def sumWord? (sum : Long) : List (TimeUnit × Nat) → Option Long
  | [] => some sum
  | (unit, n) :: amounts => do
    let millis ← Long.mul? (← Long.ofInt? n) (Int64.ofNat unit.millis)
    sumWord? (← Long.add? sum millis) amounts

/-- The reading of a duration in words. A sum without a result is out of range; the
change of the sign is the one operation after which nothing is asked. -/
def ofTextWord? (text : String) : Option (Except Fault Duration) :=
  match parts? text.toList with
  | none => some (.error .malformed)
  | some (_, []) => some (.error .noUnits)
  | some (negative, amounts) =>
    match sumWord? 0 amounts with
    | none => some (.error .outOfRange)
    | some sum => (if negative then Long.neg? sum else some sum).map fun millis => .ok ⟨millis⟩

theorem total_cons (unit : TimeUnit) (n : Nat) (amounts : List (TimeUnit × Nat)) :
    total ((unit, n) :: amounts) = n * unit.millis + total amounts :=
  rfl

theorem millisWord_toInt (unit : TimeUnit) : (Int64.ofNat unit.millis).toInt = unit.millis := by
  cases unit <;> rfl

theorem millis_pos (unit : TimeUnit) : 0 < unit.millis := by
  cases unit <;> decide

/-- A step on the way to a number that is not smaller fails only if there is no word
for that number. -/
theorem ofInt?_bind_eq {k n : Int} (hk : 0 ≤ k) (hle : k ≤ n) {f : Long → Option Long}
    (hf : ∀ a, a.toInt = k → f a = Long.ofInt? n) : Long.ofInt? k >>= f = Long.ofInt? n := by
  cases h : Long.ofInt? k with
  | none =>
      have hnone : Long.ofInt? n = none := by
        rw [Long.ofInt?_eq_none_iff] at h ⊢
        unfold Long.InRange at *
        omega
      rw [hnone]
      rfl
  | some a => exact hf a (Long.ofInt?_eq_some_iff.mp h)

theorem sumWord?_eq {sum : Long} (h : 0 ≤ sum.toInt) (amounts : List (TimeUnit × Nat)) :
    sumWord? sum amounts = Long.ofInt? (sum.toInt + total amounts) := by
  induction amounts generalizing sum with
  | nil => exact (Long.ofInt?_eq_some_iff.mpr (Int.add_zero _).symm).symm
  | cons amount amounts ih =>
      obtain ⟨unit, n⟩ := amount
      have hle : n ≤ n * unit.millis := Nat.le_mul_of_pos_right n (millis_pos unit)
      rw [sumWord?, total_cons]
      -- The amount, its milliseconds and the sum with them lie on the way to the total.
      refine ofInt?_bind_eq (Int.natCast_nonneg n) (by omega) fun a ha => ?_
      rw [Long.mul?, ha, millisWord_toInt, ← Int.natCast_mul]
      refine ofInt?_bind_eq (Int.natCast_nonneg _) (by omega) fun millis hmillis => ?_
      rw [Long.add?, hmillis]
      refine ofInt?_bind_eq (by omega) (by omega) fun next hnext => ?_
      rw [ih (by omega), hnext, Int.natCast_add, Int.add_assoc]

theorem signedTotal_inRange (negative : Bool) {amounts : List (TimeUnit × Nat)}
    (h : Long.InRange (total amounts)) : Long.InRange (signedTotal negative amounts) := by
  unfold signedTotal Long.InRange at *
  split <;> omega

theorem ofText_eq_ok_iff {text : String} {d : Duration} :
    ofText text = .ok d ↔ ∃ negative amounts, Spells text.toList negative amounts ∧
      amounts ≠ [] ∧ Long.InRange (total amounts) ∧
      d.millis.toInt = signedTotal negative amounts := by
  constructor
  · intro h
    unfold ofText at h
    split at h
    · cases h
    · cases h
    · next negative amounts hne hparts =>
      dsimp only at h
      split at h
      · next hrange =>
        cases h
        exact ⟨negative, amounts, parts?_eq_some_iff.mp hparts, hne, hrange,
          Long.toInt_ofInt (signedTotal_inRange negative hrange)⟩
      · cases h
  · rintro ⟨negative, amounts, hspells, hne, hrange, hd⟩
    obtain ⟨amount, amounts, rfl⟩ := List.exists_cons_of_ne_nil hne
    have hword : Int64.ofInt (signedTotal negative (amount :: amounts)) = d.millis := by
      rw [← hd, Int64.ofInt_toInt]
    rw [signedTotal] at hword
    simp only [ofText, parts?_eq_some_iff.mpr hspells, if_pos hrange, hword]

theorem negWord?_eq {n : Int} (hn : 0 ≤ n) (h : Long.InRange n) :
    Long.neg? (Int64.ofInt n) = some (Int64.ofInt (-n)) := by
  rw [Long.neg?, Long.toInt_ofInt h]
  refine if_pos ?_
  unfold Long.InRange at *
  omega

theorem ofTextWord?_eq (text : String) : ofTextWord? text = some (ofText text) := by
  cases hparts : parts? text.toList with
  | none => simp [ofTextWord?, ofText, hparts]
  | some parts =>
      obtain ⟨negative, amounts⟩ := parts
      cases amounts with
      | nil => simp [ofTextWord?, ofText, hparts]
      | cons amount amounts =>
          have hzero : (0 : Long).toInt = 0 := rfl
          have hsum := sumWord?_eq (Int.le_of_eq hzero.symm) (amount :: amounts)
          rw [hzero, Int.zero_add, Long.ofInt?] at hsum
          by_cases hrange : Long.InRange (total (amount :: amounts))
          · simp only [ofTextWord?, ofText, hparts, hsum, if_pos hrange,
              negWord?_eq (Int.natCast_nonneg _) hrange]
            cases negative <;> rfl
          · simp only [ofTextWord?, ofText, hparts, hsum, if_neg hrange]

/-- The reader accepts exactly the literals of the grammar that name a unit and of
which the signed total is a word but not the least one, and gives the total; in words
it has a result for every text, and the same. -/
theorem ofText_reads_amounts (text : String) :
    (∀ d, ofText text = .ok d ↔ ∃ negative amounts, Spells text.toList negative amounts ∧
      amounts ≠ [] ∧ Long.InRange (signedTotal negative amounts) ∧
      signedTotal negative amounts ≠ Int64.minValue.toInt ∧
      d.millis.toInt = signedTotal negative amounts) ∧
    ofTextWord? text = some (ofText text) := by
  refine ⟨fun d => ?_, ofTextWord?_eq text⟩
  have hleast (negative : Bool) (amounts : List (TimeUnit × Nat)) :
      Long.InRange (total amounts) ↔ Long.InRange (signedTotal negative amounts) ∧
        signedTotal negative amounts ≠ Int64.minValue.toInt := by
    have hmin : Int64.minValue.toInt = -9223372036854775808 := rfl
    -- Below zero the words reach one further than above, and only there the two differ.
    unfold signedTotal Long.InRange
    rw [hmin]
    split <;> omega
  rw [ofText_eq_ok_iff]
  refine exists_congr fun negative => exists_congr fun amounts => ?_
  rw [hleast negative amounts, and_assoc]

/-- The least word is the total of a literal that is refused, since its magnitude is
no word. -/
theorem ofText_refuses_least :
    Spells "-9223372036854775808ms".toList true [(.millisecond, 9223372036854775808)] ∧
      Long.InRange (signedTotal true [(.millisecond, 9223372036854775808)]) ∧
      ofText "-9223372036854775808ms" = .error .outOfRange :=
  ⟨parts?_eq_some_iff.mp rfl, by decide, rfl⟩

end Duration
end AccessPolicy

import AccessPolicy.Datetime
import AccessPolicy.Proofs.CalendarDays

/-!
The conversions of the calendar in machine words. Each operation on words has a
result only if the exact result is a word, and quotients are rounded toward zero,
so that the era of a year or a day before the first one needs a shifted
numerator. For the day of any instant no operation is without a result, and the
results are those of the integers.
-/

namespace AccessPolicy
namespace Long

/-- The quotient rounded toward zero. -/
def quot? (a b : Long) : Option Long :=
  if b.toInt = 0 then none else ofInt? (a.toInt.tdiv b.toInt)

/-- What the quotient rounded toward zero leaves. -/
def rem? (a b : Long) : Option Long := do
  sub? a (← mul? (← quot? a b) b)

/-- The quotient rounded down, for a positive divisor. -/
def floorQuot? (a b : Long) : Option Long := do
  let numerator ← if 0 ≤ a then some a else sub? a (b - 1)
  quot? numerator b

end Long

/-- The computation has a result, which stands for `b`. -/
def Exact {α β : Type} (meaning : α → β) (x : Option α) (b : β) : Prop :=
  ∃ a, x = some a ∧ meaning a = b

namespace Exact

variable {α β γ δ : Type} {meaning : α → β} {meaning' : γ → δ}

theorem some {a : α} {b : β} (h : meaning a = b) : Exact meaning (.some a) b := ⟨a, rfl, h⟩

theorem bind {x : Option α} {f : α → Option γ} {b : β} {d : δ} (hx : Exact meaning x b)
    (hf : ∀ a, meaning a = b → Exact meaning' (f a) d) : Exact meaning' (x >>= f) d := by
  obtain ⟨a, rfl, ha⟩ := hx
  exact hf a ha

theorem ofInt? {n : Int} (h : Long.InRange n) : Exact Int64.toInt (Long.ofInt? n) n :=
  ⟨Int64.ofInt n, if_pos h, Long.toInt_ofInt h⟩

section

variable {a b : Long} {m n k : Int} (ha : a.toInt = m) (hb : b.toInt = n)
include ha hb

theorem add (hk : m + n = k) (h : Long.InRange k) : Exact Int64.toInt (Long.add? a b) k := by
  subst ha hb hk
  exact ofInt? h

theorem sub (hk : m - n = k) (h : Long.InRange k) : Exact Int64.toInt (Long.sub? a b) k := by
  subst ha hb hk
  exact ofInt? h

theorem mul (hk : m * n = k) (h : Long.InRange k) : Exact Int64.toInt (Long.mul? a b) k := by
  subst ha hb hk
  exact ofInt? h

theorem quot_of_neg (hm : m < 0) (hn : 0 < n) :
    Exact Int64.toInt (Long.quot? a b) (-(-m / n)) := by
  subst ha hb
  have hrange := Long.inRange_toInt a
  have hle := Int.ediv_le_self b.toInt (Int.neg_nonneg_of_nonpos (Int.le_of_lt hm))
  have hpos := Int.ediv_nonneg (Int.neg_nonneg_of_nonpos (Int.le_of_lt hm)) (Int.le_of_lt hn)
  have htdiv : a.toInt.tdiv b.toInt = -(-a.toInt / b.toInt) := by
    rw [← Int.tdiv_eq_ediv_of_nonneg (by omega), Int.neg_tdiv, Int.neg_neg]
  rw [Long.quot?, if_neg (Int.ne_of_gt hn), htdiv]
  apply ofInt?
  unfold Long.InRange at *
  omega

theorem quot (hm : 0 ≤ m) (hn : 0 < n) (hk : m / n = k) :
    Exact Int64.toInt (Long.quot? a b) k := by
  subst ha hb hk
  have hrange := Long.inRange_toInt a
  have hle := Int.ediv_le_self b.toInt hm
  have hpos := Int.ediv_nonneg hm (Int.le_of_lt hn)
  rw [Long.quot?, if_neg (Int.ne_of_gt hn), Int.tdiv_eq_ediv_of_nonneg hm]
  apply ofInt?
  unfold Long.InRange at *
  omega

theorem rem (hm : 0 ≤ m) (hn : 0 < n) (hk : m % n = k) :
    Exact Int64.toInt (Long.rem? a b) k := by
  have hrange := Long.inRange_toInt a
  have hmul := Int.mul_ediv_add_emod m n
  have hrest := Int.emod_nonneg m (Int.ne_of_gt hn)
  have hlt := Int.emod_lt_of_pos m hn
  have hquot := Int.mul_nonneg (Int.le_of_lt hn) (Int.ediv_nonneg hm (Int.le_of_lt hn))
  rw [ha] at hrange
  refine .bind (quot ha hb hm hn rfl) fun q hq => ?_
  refine .bind (mul hq hb (Int.mul_comm _ _) ?_) fun p hp => sub ha hp ?_ ?_
  all_goals
    unfold Long.InRange at *
    omega

theorem floorQuot (hn : 0 < n) (hpred : (b - 1).toInt = n - 1) (hm : Long.InRange (m - (n - 1)))
    (hk : m / n = k) : Exact Int64.toInt (Long.floorQuot? a b) k := by
  rw [Long.floorQuot?]
  split
  · next h =>
    rw [Int64.le_iff_toInt_le, ha] at h
    exact .bind (.some ha) fun c hc => quot hc hb h hn hk
  · next h =>
    rw [Int64.le_iff_toInt_le, ha] at h
    have hneg : m < 0 := Int.lt_of_not_ge h
    refine .bind (sub ha hpred rfl hm) fun c hc => ?_
    have hfloor : -(-(m - (n - 1)) / n) = k := by
      have hdiv := Int.mul_ediv_add_emod m n
      have hlt := Int.emod_lt_of_pos m hn
      have hrest := Int.emod_nonneg m (Int.ne_of_gt hn)
      have hsplit : -(m - (n - 1)) = n - 1 - m % n + n * -(m / n) := by
        rw [Int.mul_neg]
        omega
      rw [hsplit, Int.add_mul_ediv_left _ _ (Int.ne_of_gt hn),
        Int.ediv_eq_zero_of_lt (by omega) (by omega), Int.zero_add, Int.neg_neg, hk]
    exact hfloor ▸ quot_of_neg hc hb (by omega) hn

end
end Exact

namespace Date

/-- A date in words. -/
structure Words where
  year : Long
  month : Long
  day : Long
deriving DecidableEq, Repr

/-- The date that the words stand for. -/
def Words.date (w : Words) : Date := ⟨w.year.toInt, w.month.toInt.toNat, w.day.toInt.toNat⟩

def monthStartWord? (m : Long) : Option Long := do
  Long.quot? (← Long.add? (← Long.mul? 153 m) 2) 5

def yearStartWord? (y : Long) : Option Long := do
  Long.sub? (← Long.add? (← Long.mul? 365 y) (← Long.quot? y 4)) (← Long.quot? y 100)

def yearOfDayWord? (d : Long) : Option Long := do
  let cycles ← Long.sub? d (← Long.quot? d 1460)
  let centuries ← Long.add? cycles (← Long.quot? d 36524)
  Long.quot? (← Long.sub? centuries (← Long.quot? d 146096)) 365

/-- The year counted from March. -/
def marchYearWord? (year month : Long) : Option Long :=
  if month ≤ 2 then Long.sub? year 1 else some year

/-- The month that is `m` months after March. -/
def monthWord? (m : Long) : Option Long :=
  if m < 10 then Long.add? m 3 else Long.sub? m 9

def toDaysWord? (w : Words) : Option Long := do
  let y ← marchYearWord? w.year w.month
  let era ← Long.floorQuot? y 400
  let yearOfEra ← Long.sub? y (← Long.mul? era 400)
  let start ← monthStartWord? (← Long.rem? (← Long.add? w.month 9) 12)
  let dayOfYear ← Long.sub? (← Long.add? start w.day) 1
  let dayOfEra ← Long.add? (← yearStartWord? yearOfEra) dayOfYear
  Long.sub? (← Long.add? (← Long.mul? era 146097) dayOfEra) 719468

def ofDaysWord? (days : Long) : Option Words := do
  let shifted ← Long.add? days 719468
  let era ← Long.floorQuot? shifted 146097
  let dayOfEra ← Long.sub? shifted (← Long.mul? era 146097)
  let yearOfEra ← yearOfDayWord? dayOfEra
  let dayOfYear ← Long.sub? dayOfEra (← yearStartWord? yearOfEra)
  let m ← Long.quot? (← Long.add? (← Long.mul? 5 dayOfYear) 2) 153
  let day ← Long.add? (← Long.sub? dayOfYear (← monthStartWord? m)) 1
  let month ← monthWord? m
  let marchYear ← Long.add? yearOfEra (← Long.mul? era 400)
  let year ← Long.add? marchYear (if month ≤ 2 then 1 else 0)
  some ⟨year, month, day⟩

theorem monthStartWord?_exact {a : Long} {m : Int} (ha : a.toInt = m) (h0 : 0 ≤ m)
    (h : m ≤ 11) : Exact Int64.toInt (monthStartWord? a) (monthStart m) := by
  refine .bind (.mul rfl ha rfl ?_) fun b hb => .bind (.add hb rfl rfl ?_) fun c hc =>
    .quot hc rfl ?_ (by decide) rfl
  all_goals
    simp [Long.InRange]
    omega

theorem yearStartWord?_exact {a : Long} {y : Int} (ha : a.toInt = y) (h0 : 0 ≤ y)
    (h : y < 400) : Exact Int64.toInt (yearStartWord? a) (yearStart y) := by
  unfold yearStart
  refine .bind (.mul rfl ha rfl ?_) fun b hb => .bind (.quot ha rfl h0 (by decide) rfl) fun c hc =>
    .bind (.add hb hc rfl ?_) fun d hd => .bind (.quot ha rfl h0 (by decide) rfl) fun e he =>
    .sub hd he rfl ?_
  all_goals
    simp [Long.InRange]
    omega

theorem yearOfDayWord?_exact {a : Long} {t : Int} (ha : a.toInt = t) (h0 : 0 ≤ t)
    (h : t < daysPerEra) : Exact Int64.toInt (yearOfDayWord? a) (yearOfDay t) := by
  unfold daysPerEra at h
  refine .bind (.quot ha rfl h0 (by decide) rfl) fun b hb => .bind (.sub ha hb rfl ?_) fun c hc =>
    .bind (.quot ha rfl h0 (by decide) rfl) fun d hd => .bind (.add hc hd rfl ?_) fun e he =>
    .bind (.quot ha rfl h0 (by decide) rfl) fun f hf => .bind (.sub he hf rfl ?_) fun g hg =>
    .quot hg rfl ?_ (by decide) rfl
  all_goals
    simp [Long.InRange]
    omega

section

variable {d : Date} {m month year : Long}

theorem marchYearWord?_exact (hyear : year.toInt = d.year) (hmonth : month.toInt = d.month)
    (hrange : Long.InRange d.marchYear) :
    Exact Int64.toInt (marchYearWord? year month) d.marchYear := by
  have htwo : month ≤ 2 ↔ d.month ≤ 2 := by
    rw [Int64.le_iff_toInt_le, hmonth]
    exact Int.ofNat_le
  unfold marchYear at *
  simp only [marchYearWord?, htwo]
  split_ifs at *
  · exact .sub hyear rfl rfl hrange
  · exact .some hyear

theorem monthWord?_exact (h : d.Valid) (hm : m.toInt = d.marchMonth) :
    Exact Int64.toInt (monthWord? m) d.month := by
  have hmonth := marchMonth_bounds d
  have hback := month_of_marchMonth h.1 h.2.1
  have hten : m < 10 ↔ d.marchMonth < 10 := by
    rw [Int64.lt_iff_toInt_lt, hm]
    rfl
  simp only [monthWord?, hten]
  split_ifs at hback ⊢
  · refine .add hm rfl hback ?_
    unfold Long.InRange
    omega
  · refine .sub hm rfl hback ?_
    unfold Long.InRange
    omega

theorem yearShift_toInt (hmonth : month.toInt = d.month) :
    (if month ≤ 2 then 1 else 0 : Long).toInt = if (d.month : Int) ≤ 2 then 1 else 0 := by
  have htwo : month ≤ 2 ↔ (d.month : Int) ≤ 2 := by
    rw [Int64.le_iff_toInt_le, hmonth]
    rfl
  simp only [htwo]
  split <;> rfl

theorem Words.date_eq {w : Words} (hyear : w.year.toInt = d.year)
    (hmonth : w.month.toInt = d.month) (hday : w.day.toInt = d.day) : w.date = d := by
  rw [date, hyear, hmonth, hday, Int.toNat_natCast, Int.toNat_natCast]

/-- A valid date determines the words that stand for it. -/
theorem Words.toInt_eq {w : Words} (hw : w.date = d) (h : d.Valid) :
    w.year.toInt = d.year ∧ w.month.toInt = d.month ∧ w.day.toInt = d.day := by
  subst hw
  obtain ⟨hmonth, -, hday, -⟩ := h
  unfold Words.date at *
  dsimp only at *
  omega

theorem Words.eq_of_date_eq {v w : Words} (hv : v.date = d) (hw : w.date = d) (h : d.Valid) :
    v = w := by
  obtain ⟨hvyear, hvmonth, hvday⟩ := toInt_eq hv h
  obtain ⟨hwyear, hwmonth, hwday⟩ := toInt_eq hw h
  cases v
  cases w
  simp only [mk.injEq]
  exact ⟨Int64.toInt_inj.mp (hvyear.trans hwyear.symm),
    Int64.toInt_inj.mp (hvmonth.trans hwmonth.symm), Int64.toInt_inj.mp (hvday.trans hwday.symm)⟩

end

section

variable {d : Date} (h : d.Valid)
  (hrange : -106751991168 ≤ d.toDays ∧ d.toDays ≤ 106751991168)
include h hrange

theorem marchYear_bounds : -300000000 ≤ d.marchYear ∧ d.marchYear ≤ 300000000 := by
  obtain ⟨h0, hlt⟩ := dayOfYear_within_year h
  rw [lt_yearLength_iff] at hlt
  rw [toDays_eq, marchStart_eq] at hrange
  unfold epochShift at hrange
  omega

theorem ofDaysWord?_exact {n : Long} (hn : n.toInt = d.toDays) :
    Exact Words.date (ofDaysWord? n) d := by
  have hyears := marchYear_bounds h hrange
  have hyear := year_of_marchYear d
  have hmonths := marchMonth_bounds d
  have hera := dayOfEra_bounds h
  obtain ⟨h0, hlt⟩ := dayOfYear_within_year h
  rw [lt_yearLength_iff] at hlt
  have hlast := Nat.le_trans h.2.2.2 (daysInMonth_bounds d.year d.month).2
  have hday : d.dayOfYear - monthStart d.marchMonth = d.day - 1 := by
    rw [dayOfYear]
    omega
  refine .bind (.add hn rfl (k := d.toDays + epochShift) rfl ?_) fun shifted hshifted =>
    .bind (.floorQuot hshifted (n := 146097) rfl (by decide) rfl ?_ (era_toDays h))
      fun era hera' =>
    .bind (.mul hera' rfl (k := d.marchYear / 400 * daysPerEra) rfl ?_) fun eraBegin heraBegin =>
    .bind (.sub hshifted heraBegin (dayOfEra_toDays d) ?_) fun inEra hinEra =>
    .bind (yearOfDay_toDays h ▸ yearOfDayWord?_exact hinEra hera.1 hera.2) fun y hy =>
    .bind (yearStartWord?_exact hy ?_ ?_) fun yearBegin hyearBegin =>
    .bind (.sub hinEra hyearBegin (k := d.dayOfYear) ?_ ?_) fun inYear hinYear =>
    .bind (.mul rfl hinYear (k := 5 * d.dayOfYear) rfl ?_) fun fifths hfifths =>
    .bind (.add hfifths rfl (k := 5 * d.dayOfYear + 2) rfl ?_) fun rounded hrounded =>
    .bind (.quot hrounded rfl ?_ (by decide) (marchMonth_of_dayOfYear h)) fun m hm =>
    .bind (monthStartWord?_exact hm hmonths.1 hmonths.2) fun monthBegin hmonthBegin =>
    .bind (.sub hinYear hmonthBegin hday ?_) fun inMonth hinMonth =>
    .bind (.add hinMonth (n := 1) rfl (k := d.day) ?_ ?_) fun day hday =>
    .bind (monthWord?_exact h hm) fun month hmonth =>
    .bind (.mul hera' rfl (k := d.marchYear / 400 * 400) rfl ?_) fun past hpast =>
    .bind (.add hy hpast (k := d.marchYear) ?_ ?_) fun marchYear hmarchYear =>
    .bind (.add hmarchYear (yearShift_toInt hmonth) hyear ?_) fun year hyear =>
    .some (Words.date_eq hyear hmonth hday)
  all_goals
    simp only [Long.InRange, epochShift, daysPerEra] at *
    omega

theorem toDaysWord?_exact {w : Words} (hw : w.date = d) :
    Exact Int64.toInt (toDaysWord? w) d.toDays := by
  obtain ⟨hyear, hmonth, hday⟩ := Words.toInt_eq hw h
  have hyears := marchYear_bounds h hrange
  have hmonths := marchMonth_bounds d
  have hera := dayOfEra_bounds h
  obtain ⟨h0, hlt⟩ := dayOfYear_within_year h
  rw [lt_yearLength_iff] at hlt
  have hstart := dayOfEra_toDays d
  have hsum : monthStart d.marchMonth + d.day - 1 = d.dayOfYear := rfl
  have hlast := h.2.1
  refine .bind (marchYearWord?_exact hyear hmonth ?_) fun y hy =>
    .bind (.floorQuot hy (n := 400) rfl (by decide) rfl ?_ rfl) fun era hera' =>
    .bind (.mul hera' rfl (k := d.marchYear / 400 * 400) rfl ?_) fun past hpast =>
    .bind (.sub hy hpast (k := d.marchYear % 400) ?_ ?_) fun yearOfEra hyearOfEra =>
    .bind (.add hmonth rfl (k := d.month + 9) rfl ?_) fun later hlater =>
    .bind (.rem hlater rfl ?_ (by decide) (k := d.marchMonth) rfl) fun m hm =>
    .bind (monthStartWord?_exact hm hmonths.1 hmonths.2) fun monthBegin hmonthBegin =>
    .bind (.add hmonthBegin hday rfl ?_) fun after hafter =>
    .bind (.sub hafter rfl (k := d.dayOfYear) rfl ?_) fun inYear hinYear =>
    .bind (yearStartWord?_exact hyearOfEra ?_ ?_) fun yearBegin hyearBegin =>
    .bind (.add hyearBegin hinYear rfl ?_) fun inEra hinEra =>
    .bind (.mul hera' rfl (k := d.marchYear / 400 * daysPerEra) rfl ?_) fun eraBegin heraBegin =>
    .bind (.add heraBegin hinEra (k := d.toDays + epochShift) ?_ ?_) fun shifted hshifted =>
    .sub hshifted (n := 719468) rfl (k := d.toDays) ?_ ?_
  all_goals
    simp only [Long.InRange, epochShift, daysPerEra] at *
    omega

end

/-- The conversions on words have results for the day with this number, and these
are the exact ones. -/
def ExactAt (k : Int) : Prop :=
  ∃ n w, n.toInt = k ∧ ofDaysWord? n = some w ∧ w.date = ofDays k ∧ toDaysWord? w = some n

theorem exactAt_of_bounds {k : Int} (hk : -106751991168 ≤ k ∧ k ≤ 106751991168) : ExactAt k := by
  have hvalid := ofDays_valid k
  have hdays := toDays_ofDays k
  have hword : Long.InRange k := by
    unfold Long.InRange
    omega
  rw [← hdays] at hk
  obtain ⟨n, -, hn⟩ := Exact.ofInt? hword
  obtain ⟨w, hw, hdate⟩ := ofDaysWord?_exact hvalid hk (hn.trans hdays.symm)
  obtain ⟨n', hn', hn''⟩ := toDaysWord?_exact hvalid hk hdate
  refine ⟨n, w, hn, hw, hdate, ?_⟩
  rw [hn', Int64.toInt_inj.mp (hn''.trans (hdays.trans hn.symm))]

/-- The days on which instants lie. -/
theorem day_bounds (t : Datetime) : -106751991168 ≤ t.day ∧ t.day ≤ 106751991167 := by
  have hrange := Long.inRange_toInt t.millis
  unfold Long.InRange at hrange
  unfold Datetime.day Datetime.millisPerDay
  omega

/-- The conversions are inverse to each other between the dates that exist and
the days, in the order of both, and for the day of an instant and the day after
it no operation on words is without a result. -/
theorem calendar_bijective :
    (∀ t : Datetime, (ofDays t.day).Valid ∧ (ofDays t.day).toDays = t.day ∧
      ofDays (t.day + 1) = (ofDays t.day).next ∧ ExactAt t.day ∧ ExactAt (t.day + 1)) ∧
    ofDays 0 = ⟨1970, 1, 1⟩ ∧
    ∀ w : Words, w.date.Valid → (∃ t : Datetime, t.day = w.date.toDays) →
      ofDays w.date.toDays = w.date ∧
        ∃ n, toDaysWord? w = some n ∧ n.toInt = w.date.toDays ∧ ofDaysWord? n = some w := by
  refine ⟨fun t => ⟨ofDays_valid _, toDays_ofDays _, ofDays_succ _, ?_, ?_⟩, rfl, ?_⟩
  · obtain ⟨hfirst, hlast⟩ := day_bounds t
    exact exactAt_of_bounds ⟨hfirst, by omega⟩
  · obtain ⟨hfirst, hlast⟩ := day_bounds t
    exact exactAt_of_bounds ⟨by omega, by omega⟩
  · intro w hvalid ht
    obtain ⟨t, ht⟩ := ht
    obtain ⟨hfirst, hlast⟩ := day_bounds t
    rw [ht] at hfirst hlast
    have hrange : -106751991168 ≤ w.date.toDays ∧ w.date.toDays ≤ 106751991168 :=
      ⟨hfirst, by omega⟩
    obtain ⟨n, hn, hdays⟩ := toDaysWord?_exact hvalid hrange rfl
    obtain ⟨w', hw', hdate⟩ := ofDaysWord?_exact hvalid hrange hdays
    refine ⟨ofDays_toDays hvalid, n, hn, hdays, ?_⟩
    rw [hw', Words.eq_of_date_eq hdate rfl hvalid]

/-- The date of the first instant. -/
theorem calendar_bijective_first :
    (Datetime.mk Int64.minValue).day = (Words.mk (-292275055) 5 16).date.toDays ∧
    ∃ n, toDaysWord? ⟨-292275055, 5, 16⟩ = some n ∧ n.toInt = -106751991168 ∧
      ofDaysWord? n = some ⟨-292275055, 5, 16⟩ := by
  have hday : (Datetime.mk Int64.minValue).day = (Words.mk (-292275055) 5 16).date.toDays := by
    decide
  exact ⟨hday, (calendar_bijective.2.2 ⟨-292275055, 5, 16⟩ (by decide) ⟨_, hday⟩).2⟩

end Date
end AccessPolicy

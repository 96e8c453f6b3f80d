import Annals.Proofs.Date.Stamp
import Mathlib.Order.Monotone.Basic
import Mathlib.Data.List.Lex

/-!
# Days and times in order

The count of a civil time follows the calendar: the day after a day counts one more (`days_tomorrow`),
whether it lies in the same month, the next one or the next year, and civil times are counted in the
order of their fields (`micros_lt_iff`). So a stamp's time in UTC can be said without any count: it is
the time of day less the offset, on the same day, the day before or the day after (`Stamp.IsInUtc`).
There is such a time exactly if the stamp is in range, and it is the one that is counted
(`Stamp.isInUtc_iff`).
-/

namespace Annals

/-! ## Blocks

Years, months, days, hours, minutes and seconds are blocks of a count, each beginning where the one
before it ends.
-/

section Blocks

variable {start : Nat → Nat} {a b c d : Nat}

/-- Places in blocks are in order as their blocks are, and as they are within one block. -/
theorem lt_iff_of_blocks (hstart : Monotone start) (hb : start a + b < start (a + 1))
    (hd : start c + d < start (c + 1)) :
    start a + b < start c + d ↔ a < c ∨ a = c ∧ b < d := by
  rcases Nat.lt_trichotomy a c with h | rfl | h
  · have hle : start (a + 1) ≤ start c := hstart h
    exact iff_of_true (by omega) (Or.inl h)
  · simp
  · have hle : start (c + 1) ≤ start a := hstart h
    exact iff_of_false (by omega) (by omega)

/-- Blocks of one length. -/
theorem lt_iff_of_units {n : Nat} (hb : b < n) (hd : d < n) :
    a * n + b < c * n + d ↔ a < c ∨ a = c ∧ b < d := by
  have hmono : Monotone (· * n) := fun _ _ h => Nat.mul_le_mul_right n h
  refine lt_iff_of_blocks hmono ?_ ?_
  · simpa only [Nat.succ_mul] using Nat.add_lt_add_left hb _
  · simpa only [Nat.succ_mul] using Nat.add_lt_add_left hd _

end Blocks

/-! ## Years and months -/

theorem daysBeforeYear_succ {y : Nat} (h : 0 < y) :
    daysBeforeYear (y + 1) = daysBeforeYear y + yearLength (isLeap y) := by
  obtain ⟨p, rfl⟩ := Nat.exists_eq_add_of_le' h
  have hleap : isLeap (p + 1) = true ↔ 4 ∣ p + 1 ∧ (¬100 ∣ p + 1 ∨ 400 ∣ p + 1) := by
    rw [isLeap_iff, ← Nat.dvd_iff_mod_eq_zero, ← Nat.dvd_iff_mod_eq_zero, ne_eq,
      ← Nat.dvd_iff_mod_eq_zero]
  have hcentury : 100 ∣ p + 1 → 4 ∣ p + 1 := Nat.dvd_trans ⟨25, rfl⟩
  have hfourth : 400 ∣ p + 1 → 100 ∣ p + 1 := Nat.dvd_trans ⟨4, rfl⟩
  simp only [daysBeforeYear, yearLength, hleap, Nat.add_sub_cancel, Nat.succ_div]
  have hle : p / 100 ≤ p / 4 := Nat.div_le_div_left (by decide) (by decide)
  by_cases h4 : 4 ∣ p + 1
  · by_cases h100 : 100 ∣ p + 1
    · by_cases h400 : 400 ∣ p + 1
      · simp only [h4, h100, h400, not_true_eq_false, or_true, and_self, if_true]
        omega
      · simp only [h4, h100, h400, not_true_eq_false, or_false, and_false, if_true, if_false]
        omega
    · simp only [h4, h100, mt hfourth h100, not_false_eq_true, or_false, and_self, if_true,
        if_false]
      omega
  · have h100 := mt hcentury h4
    simp only [h4, h100, mt hfourth h100, false_and, if_false]
    omega

theorem monotone_daysBeforeYear : Monotone daysBeforeYear := by
  refine monotone_nat_of_le_succ fun y => ?_
  rcases Nat.eq_zero_or_pos y with rfl | hy
  · exact Nat.le_refl _
  · rw [daysBeforeYear_succ hy]
    exact Nat.le_add_right _ _

theorem daysBeforeMonth_succ (y : Nat) {m : Nat} (h : 1 ≤ m) :
    daysBeforeMonth y (m + 1) = daysBeforeMonth y m + daysInMonth y m := by
  obtain ⟨m, rfl⟩ := Nat.exists_eq_add_of_le' h
  rw [daysBeforeMonth, daysBeforeMonth, daysInMonth, if_neg (Nat.succ_ne_zero m),
    Nat.add_sub_cancel, Nat.add_sub_cancel, List.take_add_one, ← List.sum_eq_foldr,
    ← List.sum_eq_foldr, List.sum_append]
  cases (monthLengths (isLeap y))[m]? <;> simp

theorem monotone_daysBeforeMonth (y : Nat) : Monotone (daysBeforeMonth y) := by
  refine monotone_nat_of_le_succ fun m => ?_
  rcases Nat.eq_zero_or_pos m with rfl | hm
  · exact Nat.le_refl _
  · rw [daysBeforeMonth_succ y hm]
    exact Nat.le_add_right _ _

/-- Every month has a first day. -/
theorem one_le_daysInMonth (y : Nat) {m : Nat} (hlow : 1 ≤ m) (hhigh : m ≤ 12) :
    1 ≤ daysInMonth y m := by
  have hall : ∀ len ∈ monthLengths (isLeap y), 1 ≤ len := by cases isLeap y <;> decide
  have hlt : m - 1 < (monthLengths (isLeap y)).length := by
    rw [monthLengths]
    exact (by omega : m - 1 < 12)
  rw [daysInMonth, if_neg (by omega), List.getElem?_eq_getElem hlt]
  exact hall _ (List.getElem_mem hlt)

/-- The months of a year fill it. -/
theorem daysBeforeMonth_thirteen (y : Nat) : daysBeforeMonth y 13 = yearLength (isLeap y) := by
  rw [daysBeforeMonth, ← Civil.foldr_monthLengths]
  cases isLeap y <;> rfl

namespace Civil

/-- Whether year, month and day name a day of the calendar, in whatever year. -/
structure IsDay (c : Civil) : Prop where
  year : 0 < c.year
  day : 1 ≤ c.day
  day_le : c.day ≤ daysInMonth c.year c.month

/-- The same time on the day after. -/
def tomorrow (c : Civil) : Civil :=
  if c.day < daysInMonth c.year c.month then { c with day := c.day + 1 }
  else if c.month < 12 then { c with month := c.month + 1, day := 1 }
  else { c with year := c.year + 1, month := 1, day := 1 }

/-- Year, month and day. -/
def date (c : Civil) : Nat × Nat × Nat := (c.year, c.month, c.day)

/-- The fields, the largest unit first. -/
def parts (c : Civil) : List Nat :=
  [c.year, c.month, c.day, c.hour, c.minute, c.second, c.micro]

variable {c d : Civil}

theorem isDay_of_isValid (h : c.isValid = true) : c.IsDay := by
  simp only [isValid, Bool.and_eq_true, decide_eq_true_eq] at h
  obtain ⟨⟨⟨⟨⟨⟨⟨hyear, -⟩, hlow⟩, hhigh⟩, -⟩, -⟩, -⟩, -⟩ := h
  exact ⟨hyear, hlow, hhigh⟩

namespace IsDay

theorem month (h : c.IsDay) : 1 ≤ c.month ∧ c.month ≤ 12 := by
  obtain ⟨hlow, hhigh, -⟩ := daysInMonth_bounds h.day h.day_le
  exact ⟨hlow, hhigh⟩

theorem dayOfMonth_lt (h : c.IsDay) :
    daysBeforeMonth c.year c.month + (c.day - 1) < daysBeforeMonth c.year (c.month + 1) := by
  rw [daysBeforeMonth_succ _ h.month.1]
  have hday := h.day
  have hle := h.day_le
  omega

theorem dayOfYear_lt (h : c.IsDay) :
    daysBeforeYear c.year + (daysBeforeMonth c.year c.month + (c.day - 1)) <
      daysBeforeYear (c.year + 1) := by
  rw [daysBeforeYear_succ h.year, ← daysBeforeMonth_thirteen]
  exact Nat.add_lt_add_left (Nat.lt_of_lt_of_le h.dayOfMonth_lt
    (monotone_daysBeforeMonth c.year (Nat.succ_le_succ h.month.2))) _

theorem tomorrow (h : c.IsDay) : c.tomorrow.IsDay := by
  rw [Civil.tomorrow]
  split
  · next hlt => exact ⟨h.year, Nat.succ_pos _, hlt⟩
  · split
    · next hmonth =>
      exact ⟨h.year, Nat.le_refl 1, one_le_daysInMonth c.year (Nat.succ_pos _) hmonth⟩
    · exact ⟨Nat.succ_pos _, Nat.le_refl 1, one_le_daysInMonth (c.year + 1) (m := 1) (Nat.le_refl 1) (by decide)⟩

end IsDay

/-- The day after a day is the next one counted, across the ends of months and years. -/
theorem days_tomorrow (h : c.IsDay) : c.tomorrow.days = c.days + 1 := by
  have hday := h.day
  have hle := h.day_le
  obtain ⟨hlow, hhigh⟩ := h.month
  rw [tomorrow]
  split
  · simp only [days]
    omega
  · next hlast =>
    split
    · have hmonth := daysBeforeMonth_succ c.year hlow
      simp only [days]
      omega
    · next hdecember =>
      obtain hm : c.month = 12 := by omega
      rw [hm] at hlast hle
      have hmonth : daysBeforeMonth c.year 13 = daysBeforeMonth c.year 12 + daysInMonth c.year 12 :=
        daysBeforeMonth_succ c.year (by decide)
      have hyear := daysBeforeYear_succ h.year
      have hmonths := daysBeforeMonth_thirteen c.year
      have hzero : daysBeforeMonth (c.year + 1) 1 = 0 := rfl
      simp only [days, hm]
      omega

/-- Days are counted in the order of year, month and day. -/
theorem days_lt_iff (hc : c.IsDay) (hd : d.IsDay) :
    c.days < d.days ↔ c.year < d.year ∨ c.year = d.year ∧
      (c.month < d.month ∨ c.month = d.month ∧ c.day < d.day) := by
  rw [days, days, Nat.add_assoc, Nat.add_assoc,
    lt_iff_of_blocks monotone_daysBeforeYear hc.dayOfYear_lt hd.dayOfYear_lt]
  refine or_congr_right (and_congr_right fun hyear => ?_)
  have hdmonth := hd.dayOfMonth_lt
  rw [← hyear] at hdmonth ⊢
  rw [lt_iff_of_blocks (monotone_daysBeforeMonth c.year) hc.dayOfMonth_lt hdmonth]
  refine or_congr_right (and_congr_right fun _ => ?_)
  have hcday := hc.day
  omega

theorem days_eq_iff (hc : c.IsDay) (hd : d.IsDay) : c.days = d.days ↔ c.date = d.date := by
  have hlt := days_lt_iff hc hd
  have hgt := days_lt_iff hd hc
  simp only [date, Prod.mk.injEq]
  omega

/-! ## Times of day -/

theorem microsOfDay_eq (c : Civil) :
    c.microsOfDay = c.hour * microsPerHour + (c.minute * microsPerMinute +
      (c.second * microsPerSecond + c.micro)) := by
  rw [microsOfDay, Nat.add_assoc, Nat.add_assoc]

/-- The time of day of a valid civil time, and its parts, lie within their units. -/
theorem microsOfDay_bounds (h : c.isValid = true) :
    c.second * microsPerSecond + c.micro < microsPerMinute ∧
      c.minute * microsPerMinute + (c.second * microsPerSecond + c.micro) < microsPerHour ∧
      c.microsOfDay < microsPerDay := by
  simp only [isValid, Bool.and_eq_true, decide_eq_true_eq] at h
  obtain ⟨⟨⟨⟨-, hhour⟩, hminute⟩, hsecond⟩, hmicro⟩ := h
  rw [microsOfDay_eq]
  simp only [microsPerDay, microsPerHour, microsPerMinute, microsPerSecond] at hmicro ⊢
  omega

theorem microsOfDay_lt_iff (hc : c.isValid = true) (hd : d.isValid = true) :
    c.microsOfDay < d.microsOfDay ↔ c.hour < d.hour ∨ c.hour = d.hour ∧
      (c.minute < d.minute ∨ c.minute = d.minute ∧
        (c.second < d.second ∨ c.second = d.second ∧ c.micro < d.micro)) := by
  obtain ⟨hcminute, hchour, -⟩ := microsOfDay_bounds hc
  obtain ⟨hdminute, hdhour, -⟩ := microsOfDay_bounds hd
  have hmicro {c : Civil} (h : c.isValid = true) : c.micro < microsPerSecond := by
    simp only [isValid, Bool.and_eq_true, decide_eq_true_eq] at h
    exact h.2
  rw [microsOfDay_eq, microsOfDay_eq, lt_iff_of_units hchour hdhour,
    lt_iff_of_units hcminute hdminute, lt_iff_of_units (hmicro hc) (hmicro hd)]

/-- Civil times are counted in the order of their fields. -/
theorem micros_lt_iff (hc : c.isValid = true) (hd : d.isValid = true) :
    c.micros < d.micros ↔ c.parts < d.parts := by
  rw [micros, micros, lt_iff_of_units (microsOfDay_bounds hc).2.2 (microsOfDay_bounds hd).2.2,
    days_lt_iff (isDay_of_isValid hc) (isDay_of_isValid hd),
    days_eq_iff (isDay_of_isValid hc) (isDay_of_isValid hd), microsOfDay_lt_iff hc hd]
  simp only [parts, date, Prod.mk.injEq, List.cons_lt_cons_iff, List.lt_irrefl, and_false, or_false]
  tauto

/-- Valid civil times of one count are the same. -/
theorem eq_of_micros_eq (hc : c.isValid = true) (hd : d.isValid = true) (h : c.micros = d.micros) :
    c = d := by
  have hlt : ¬c.parts < d.parts := mt (micros_lt_iff hc hd).2 (Nat.not_lt_of_le h.ge)
  have hgt : ¬d.parts < c.parts := mt (micros_lt_iff hd hc).2 (Nat.not_lt_of_le h.le)
  obtain ⟨_, _, _, _, _, _, _⟩ := c
  obtain ⟨_, _, _, _, _, _, _⟩ := d
  simpa [parts] using List.le_antisymm hgt hlt

theorem micros_lt_endOfTime (h : c.isValid = true) : c.micros < endOfTime := by
  have hday := isDay_of_isValid h
  have hyear : c.year ≤ lastYear := Nat.le_of_lt_succ (bounds_of_isValid h).1
  have hdays : c.days < daysBeforeYear (lastYear + 1) := by
    rw [days, Nat.add_assoc]
    exact Nat.lt_of_lt_of_le hday.dayOfYear_lt (monotone_daysBeforeYear (Nat.succ_le_succ hyear))
  have htime := (microsOfDay_bounds h).2.2
  calc c.micros < c.days * microsPerDay + microsPerDay := Nat.add_lt_add_left htime _
    _ = (c.days + 1) * microsPerDay := (Nat.succ_mul _ _).symm
    _ ≤ endOfTime := Nat.mul_le_mul_right microsPerDay hdays

end Civil

/-! ## Stamps in UTC -/

theorem Offset.micros_bounds (o : Offset) :
    -(microsPerDay : Int) < o.micros ∧ o.micros < microsPerDay := by
  have hh := o.hours_lt
  have hm := o.minutes_lt
  simp only [micros, microsPerDay, microsPerHour, microsPerMinute, microsPerSecond]
  split <;> omega

namespace Stamp

/-- Whether a civil time is that of a stamp in UTC: it has the time of day less the offset if that lies
in the same day, and otherwise what is more or less than a day, on the day after or before. -/
def IsInUtc (s : Stamp) (u : Civil) : Prop :=
  let time : Int := s.civil.microsOfDay - s.offset.micros
  u.isValid = true ∧
    (u.date = s.civil.date ∧ (u.microsOfDay : Int) = time ∨
      u.date = s.civil.tomorrow.date ∧ (u.microsOfDay : Int) = time - microsPerDay ∨
      u.tomorrow.date = s.civil.date ∧ (u.microsOfDay : Int) = time + microsPerDay)

/-- The civil time of a stamp in UTC is the one at its instant. -/
theorem isInUtc_iff {s : Stamp} {u : Civil} :
    s.IsInUtc u ↔ u.isValid = true ∧ (u.micros : Int) = s.instant := by
  refine and_congr_right fun hu => ?_
  have hday := Civil.isDay_of_isValid hu
  have hsday := Civil.isDay_of_isValid s.valid
  rw [← Civil.days_eq_iff hday hsday, ← Civil.days_eq_iff hday hsday.tomorrow,
    ← Civil.days_eq_iff hday.tomorrow hsday, Civil.days_tomorrow hday, Civil.days_tomorrow hsday]
  have htime := (Civil.microsOfDay_bounds hu).2.2
  have hstime := (Civil.microsOfDay_bounds s.valid).2.2
  obtain ⟨hlow, hhigh⟩ := s.offset.micros_bounds
  simp only [instant, Civil.micros, microsPerDay, microsPerHour, microsPerMinute,
    microsPerSecond] at *
  omega

theorem exists_isInUtc_iff {s : Stamp} : (∃ u, s.IsInUtc u) ↔ s.InRange := by
  simp only [isInUtc_iff, InRange]
  constructor
  · rintro ⟨u, hu, hmicros⟩
    have hlt := Civil.micros_lt_endOfTime hu
    omega
  · rintro ⟨hlow, hhigh⟩
    refine ⟨.ofMicros s.instant.toNat, Civil.isValid_ofMicros (by omega), ?_⟩
    rw [Civil.micros_ofMicros]
    omega

/-- The civil time in UTC is found by counting. -/
theorem isInUtc_iff_eq {s : Stamp} {u : Civil} (h : s.InRange) :
    s.IsInUtc u ↔ Moment.utc u = s.utc := by
  obtain ⟨-, hvalid, hinstant⟩ := utc_spec h
  have hmicros : (s.utc.civil.micros : Int) = s.instant := by
    simpa [Moment.instant, utc, Moment.utc] using hinstant
  rw [isInUtc_iff]
  constructor
  · rintro ⟨hu, hmicros'⟩
    have hsame : u.micros = s.utc.civil.micros := by omega
    exact congrArg Moment.utc (Civil.eq_of_micros_eq hu hvalid hsame)
  · intro heq
    have hu : u = s.utc.civil := congrArg Moment.civil heq
    exact hu ▸ ⟨hvalid, hmicros⟩

end Stamp

end Annals

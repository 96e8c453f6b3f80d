import Annals.Date.Moment

/-!
# The civil time of a count is exact

`Civil.ofMicros` and `Civil.micros` are inverse: a count before the end of time is the count of the civil
time found for it (`micros_ofMicros`), which is valid (`isValid_ofMicros`). The days are cut into cycles
of 400, 100, 4 and 1 years, whose last century and last year are a day longer or shorter than the others
(`yearOfDay_spec`); the day of the year is cut by the lengths of the months (`monthOfDay_spec`). So a
moment in UTC that is made for an instant lies at that instant (`ofInstant?_eq_some`).
-/

namespace Annals

/-- The number of days of a year. -/
def yearLength (leap : Bool) : Nat := if leap then 366 else 365

theorem isLeap_iff (y : Nat) :
    isLeap y = true ↔ y % 4 = 0 ∧ (y % 100 ≠ 0 ∨ y % 400 = 0) := by
  simp [isLeap]

namespace Civil

/-! ## Years -/

/-- The days before a year that is written by cycles, and the days that it can hold: only the fourth
year of a cycle has a last day, and of a century's last cycle only if it is the fourth century. -/
theorem cycles_spec (n400 n100 n4 n1 d : Nat) (h100 : n100 ≤ 3) (h4 : n4 ≤ 24) (h1 : n1 ≤ 3)
    (hd : d ≤ 365) (hlast : d = 365 → n1 = 3 ∧ (n4 = 24 → n100 = 3)) :
    let y := 400 * n400 + 100 * n100 + 4 * n4 + n1 + 1
    daysBeforeYear y = 146097 * n400 + 36524 * n100 + 1461 * n4 + 365 * n1 ∧
      d < yearLength (isLeap y) := by
  refine ⟨?_, ?_⟩
  · rw [daysBeforeYear]
    omega
  · rw [yearLength]
    split
    · omega
    · next hleap =>
      rw [isLeap_iff] at hleap
      omega

/-- The year of a day and the day in it count up to the day, and the day lies in the year. -/
theorem yearOfDay_spec {n : Nat} {year : Nat × Nat} (h : yearOfDay n = year) :
    n = daysBeforeYear year.1 + year.2 ∧ year.2 < yearLength (isLeap year.1) := by
  subst h
  simp only [yearOfDay]
  generalize hr : n % 146097 = r
  generalize h100 : min 3 (r / 36524) = n100
  generalize hr' : r - n100 * 36524 = r'
  generalize h1 : min 3 (r' % 1461 / 365) = n1
  obtain ⟨hdays, hlt⟩ := cycles_spec (n / 146097) n100 (r' / 1461) n1 (r' % 1461 - n1 * 365)
    (by omega) (by omega) (by omega) (by omega) (by omega)
  refine ⟨?_, hlt⟩
  rw [hdays]
  omega

theorem yearOfDay_bounds {n : Nat} {year : Nat × Nat} (hn : n < daysBeforeYear (lastYear + 1))
    (h : yearOfDay n = year) : firstYear ≤ year.1 ∧ year.1 ≤ lastYear := by
  subst h
  simp only [daysBeforeYear, lastYear] at hn
  simp only [yearOfDay, firstYear, lastYear]
  omega

/-! ## Months -/

/-- A day that lies in the months left is found in one of them, behind the days of those before. -/
theorem monthOfDay_spec (lens : List Nat) (m d : Nat) (h : d < lens.foldr (· + ·) 0) :
    ∃ k len, (monthOfDay lens m d).1 = m + k ∧ lens[k]? = some len ∧
      (monthOfDay lens m d).2 < len ∧
      d = (lens.take k).foldr (· + ·) 0 + (monthOfDay lens m d).2 := by
  induction lens generalizing m d with
  | nil => exact absurd h (Nat.not_lt_zero d)
  | cons len lens ih =>
    rw [monthOfDay]
    split
    · next hd => exact ⟨0, len, rfl, rfl, hd, by simp⟩
    · next hd =>
      rw [List.foldr_cons] at h
      obtain ⟨k, len', hm, hlen, hlt, hsum⟩ := ih (m + 1) (d - len) (by omega)
      refine ⟨k + 1, len', by omega, by simpa using hlen, hlt, ?_⟩
      rw [List.take_succ_cons, List.foldr_cons]
      omega

theorem foldr_monthLengths (leap : Bool) :
    (monthLengths leap).foldr (· + ·) 0 = yearLength leap := by
  cases leap <;> rfl

theorem monthOfDay_monthLengths {y d : Nat} {month : Nat × Nat} (h : d < yearLength (isLeap y))
    (hmonth : monthOfDay (monthLengths (isLeap y)) 1 d = month) :
    month.2 < daysInMonth y month.1 ∧ d = daysBeforeMonth y month.1 + month.2 := by
  rw [← foldr_monthLengths] at h
  obtain ⟨k, len, hm, hlen, hlt, hsum⟩ := monthOfDay_spec _ 1 d h
  rw [hmonth] at hm hlt hsum
  refine ⟨?_, ?_⟩
  · rw [daysInMonth, hm, if_neg (by omega), Nat.add_sub_cancel_left, hlen]
    exact hlt
  · rw [daysBeforeMonth, hm, Nat.add_sub_cancel_left]
    exact hsum

/-! ## Counts -/

/-- The year of the day of a count, the month in it and the time of day make up its civil time. -/
theorem ofMicros_parts (n : Nat) : ∃ (year month : Nat × Nat) (t : Nat),
    yearOfDay (n / microsPerDay) = year ∧
      monthOfDay (monthLengths (isLeap year.1)) 1 year.2 = month ∧ n % microsPerDay = t ∧
      ofMicros n =
        { year := year.1, month := month.1, day := month.2 + 1
          hour := t / microsPerHour
          minute := t % microsPerHour / microsPerMinute
          second := t % microsPerMinute / microsPerSecond
          micro := t % microsPerSecond } := by
  obtain ⟨year, hyear⟩ : ∃ year, yearOfDay (n / microsPerDay) = year := ⟨_, rfl⟩
  refine ⟨year, _, _, hyear, rfl, rfl, ?_⟩
  rw [ofMicros, hyear]

theorem ofMicros_days (n : Nat) : (ofMicros n).days = n / microsPerDay := by
  obtain ⟨year, month, t, hyear, hmonth, ht, h⟩ := ofMicros_parts n
  obtain ⟨hdays, hlt⟩ := yearOfDay_spec hyear
  obtain ⟨-, hrest⟩ := monthOfDay_monthLengths hlt hmonth
  simp only [h, days]
  rw [hdays, Nat.add_sub_cancel, Nat.add_assoc, ← hrest]

theorem ofMicros_microsOfDay (n : Nat) : (ofMicros n).microsOfDay = n % microsPerDay := by
  obtain ⟨year, month, t, hyear, hmonth, ht, h⟩ := ofMicros_parts n
  simp only [h, ht, microsOfDay]
  have hm : t % microsPerHour % microsPerMinute = t % microsPerMinute :=
    Nat.mod_mod_of_dvd t ⟨60, rfl⟩
  have hs : t % microsPerMinute % microsPerSecond = t % microsPerSecond :=
    Nat.mod_mod_of_dvd t ⟨60, rfl⟩
  rw [← hs, Nat.add_assoc, Nat.div_add_mod', ← hm, Nat.add_assoc, Nat.div_add_mod',
    Nat.div_add_mod']

theorem micros_ofMicros (n : Nat) : (ofMicros n).micros = n := by
  rw [micros, ofMicros_days, ofMicros_microsOfDay, Nat.mul_comm]
  exact Nat.div_add_mod n microsPerDay

theorem isValid_ofMicros {n : Nat} (h : n < endOfTime) : (ofMicros n).isValid = true := by
  have hdays : n / microsPerDay < daysBeforeYear (lastYear + 1) :=
    Nat.div_lt_of_lt_mul (by rwa [Nat.mul_comm])
  have htime : n % microsPerDay < 24 * microsPerHour := Nat.mod_lt n (by decide)
  obtain ⟨year, month, t, hyear, hmonth, ht, hparts⟩ := ofMicros_parts n
  rw [ht] at htime
  obtain ⟨hfirst, hlast⟩ := yearOfDay_bounds hdays hyear
  obtain ⟨-, hlt⟩ := yearOfDay_spec hyear
  obtain ⟨hday, -⟩ := monthOfDay_monthLengths hlt hmonth
  have hhour : t / microsPerHour < 24 := Nat.div_lt_of_lt_mul (by rwa [Nat.mul_comm])
  have hminute : t % microsPerHour / microsPerMinute < 60 :=
    Nat.div_lt_of_lt_mul (Nat.mod_lt t (by decide))
  have hsecond : t % microsPerMinute / microsPerSecond < 60 :=
    Nat.div_lt_of_lt_mul (Nat.mod_lt t (by decide))
  have hmicro : t % microsPerSecond < microsPerSecond := Nat.mod_lt t (by decide)
  simp only [hparts, isValid, hfirst, hlast, hhour, hminute, hsecond,
    hmicro, Nat.succ_le_iff.2 hday, decide_true, Bool.and_true, Nat.le_add_left]

end Civil

namespace Moment

/-- A moment made for an instant is a valid civil time in UTC at that instant. -/
theorem ofInstant?_eq_some {i : Int} {m : Moment} (h : ofInstant? i = some m) :
    m.offset? = some 0 ∧ m.civil.isValid = true ∧ m.instant = i := by
  rw [ofInstant?] at h
  split at h
  · next hi =>
    obtain rfl := Option.some.inj h
    refine ⟨rfl, Civil.isValid_ofMicros (by omega), ?_⟩
    simp only [instant, utc, Civil.micros_ofMicros, Option.getD_some]
    omega
  · exact absurd h (by simp)

end Moment

end Annals

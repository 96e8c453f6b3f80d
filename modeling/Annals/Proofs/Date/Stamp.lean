import Annals.Proofs.Date.Calendar
import Annals.Proofs.Date.Matching
import Annals.Proofs.Text.Fields

/-!
# Stamps

A stamp is a valid civil time in whole seconds on a clock at a known offset from UTC, as a tool prints
it: with all digits of every field. The date patterns of all tools agree on how the day and the time of
day are printed (`firstMatch?_day`, `firstMatch?_clock`); they differ in what stands between and behind.
A text that a pattern reads as the fields of a stamp gives the stamp's moment (`read?_of_firstMatch?`),
and in UTC the moment at the stamp's instant, if there is one (`readDate_of_read?`).
-/

namespace Annals

/-- An offset from UTC as clocks have it: less than a day, in whole minutes. -/
structure Offset where
  /-- Whether the clock is behind UTC. -/
  behind : Bool
  hours : Nat
  minutes : Nat
  hours_lt : hours < 24
  minutes_lt : minutes < 60
  deriving DecidableEq

/-- How far the clock is ahead of UTC in microseconds. -/
def Offset.micros (o : Offset) : Int :=
  let n : Nat := o.hours * microsPerHour + o.minutes * microsPerMinute
  if o.behind then -(n : Int) else n

/-- An offset with its sign, with or without a colon. -/
def Offset.text (o : Offset) (colon : Bool) : Text :=
  Zone.sign o.behind ::
    (Text.ofNatPadded 2 o.hours ++ (Zone.colonText colon ++ Text.ofNatPadded 2 o.minutes))

/-- A civil time in whole seconds on a clock at a known offset. -/
structure Stamp where
  civil : Civil
  offset : Offset
  valid : civil.isValid = true
  whole : civil.micro = 0
  deriving DecidableEq

namespace Stamp

/-- The microseconds from the start of year 1 in UTC: the civil time less the offset. -/
def instant (s : Stamp) : Int := (s.civil.micros : Int) - s.offset.micros

/-- Whether the instant lies in the years 1 to 9999. -/
def InRange (s : Stamp) : Prop := 0 ≤ s.instant ∧ s.instant < endOfTime

instance (s : Stamp) : Decidable s.InRange := inferInstanceAs (Decidable (_ ∧ _))

/-- The civil time in UTC at the instant of a stamp. -/
def utc (s : Stamp) : Moment := .utc (.ofMicros s.instant.toNat)

/-- What is read of a stamp: its time in UTC, if that lies in the years 1 to 9999. -/
def reading (s : Stamp) : Except DateError Moment :=
  if s.InRange then .ok s.utc else .error .outOfRange

theorem reading_eq_ok {s : Stamp} (h : s.InRange) : s.reading = .ok s.utc := if_pos h

theorem utc_spec {s : Stamp} (h : s.InRange) :
    s.utc.offset? = some 0 ∧ s.utc.civil.isValid = true ∧ s.utc.instant = s.instant :=
  Moment.ofInstant?_eq_some (if_pos h)

end Stamp

/-! ## Bounds of valid civil times -/

theorem monthLengths_le (leap : Bool) : ∀ len ∈ monthLengths leap, len ≤ 31 := by
  cases leap <;> decide

theorem daysInMonth_bounds {y m d : Nat} (hlow : 1 ≤ d) (hhigh : d ≤ daysInMonth y m) :
    1 ≤ m ∧ m ≤ 12 ∧ d ≤ 31 := by
  rw [daysInMonth] at hhigh
  split at hhigh
  · omega
  · next hm =>
    cases hk : (monthLengths (isLeap y))[m - 1]? with
    | none =>
      rw [hk, Option.getD_none] at hhigh
      omega
    | some len =>
      have hlt : m - 1 < 12 := (List.getElem?_eq_some_iff.1 hk).1
      have hlen : len ≤ 31 := monthLengths_le _ len (List.mem_of_getElem? hk)
      rw [hk, Option.getD_some] at hhigh
      omega

theorem Civil.bounds_of_isValid {c : Civil} (h : c.isValid = true) :
    c.year < 10000 ∧ (1 ≤ c.month ∧ c.month ≤ 12) ∧ (1 ≤ c.day ∧ c.day ≤ 31) ∧ c.hour < 24 ∧
      c.minute < 60 ∧ c.second < 60 := by
  simp only [isValid, Bool.and_eq_true, decide_eq_true_eq] at h
  obtain ⟨⟨⟨⟨⟨⟨⟨-, hyear⟩, hlow⟩, hhigh⟩, hhour⟩, hminute⟩, hsecond⟩, -⟩ := h
  obtain ⟨hm1, hm12, hd31⟩ := daysInMonth_bounds hlow hhigh
  exact ⟨Nat.lt_succ_of_le hyear, ⟨hm1, hm12⟩, ⟨hlow, hd31⟩, hhour, hminute, hsecond⟩

/-! ## Printed days and times of day -/

/-- Year, month and day of a civil time. -/
def Civil.dayText (c : Civil) : Text :=
  Text.ofNatPadded 4 c.year ++ '-' :: (Text.ofNatPadded 2 c.month ++ '-' :: Text.ofNatPadded 2 c.day)

namespace DatePattern

open DateItem

variable {items : DatePattern} {rest : Text} {f : DateFields} {r : DateFields × Text}

theorem firstMatch?_day {c : Civil} (h : c.isValid = true)
    (hitems : firstMatch? items { f with year := c.year, month := c.month, day := c.day } rest =
      some r) :
    firstMatch? (.year :: .literal '-' :: .month :: .literal '-' :: .day :: items) f
      (c.dayText ++ rest) = some r := by
  obtain ⟨hyear, hmonth, hday, -⟩ := c.bounds_of_isValid h
  rw [Civil.dayText, List.append_assoc, List.cons_append, List.append_assoc, List.cons_append]
  refine firstMatch?_cons (first_year _ hyear) ?_
  refine firstMatch?_cons (first_literal '-' _) ?_
  refine firstMatch?_cons (first_month _ hmonth.1 hmonth.2) ?_
  refine firstMatch?_cons (first_literal '-' _) ?_
  exact firstMatch?_cons (first_day rest hday.1 hday.2) hitems

theorem firstMatch?_clock {c : Civil} (h : c.isValid = true)
    (hitems : firstMatch? items { f with hour := c.hour, minute := c.minute, second := c.second }
      rest = some r) :
    firstMatch? (.hour :: .literal ':' :: .minute :: .literal ':' :: .second :: items) f
      (Moment.clockText c ++ rest) = some r := by
  obtain ⟨-, -, -, hhour, hminute, hsecond⟩ := c.bounds_of_isValid h
  have htext : Moment.clockText c ++ rest =
      Text.ofNatPadded 2 c.hour ++ ':' :: (Text.ofNatPadded 2 c.minute ++ ':' ::
        (Text.ofNatPadded 2 c.second ++ rest)) := by
    simp [Moment.clockText]
  rw [htext]
  refine firstMatch?_cons (first_hour _ hhour) ?_
  refine firstMatch?_cons (first_literal ':' _) ?_
  refine firstMatch?_cons (first_minute _ hminute) ?_
  refine firstMatch?_cons (first_literal ':' _) ?_
  exact firstMatch?_cons (first_second rest hsecond) hitems

end DatePattern

/-! ## Reading dates -/

/-- A date that was read is in UTC. -/
theorem offset?_of_readDate {ps : List DatePattern} {t : Text} {m : Moment}
    (h : readDate ps t = .ok m) : m.offset? = some 0 := by
  unfold readDate at h
  split at h
  · exact nomatch h
  · next read _ =>
    cases hutc : read.toUtc? with
    | none =>
      rw [hutc] at h
      exact nomatch h
    | some m' =>
      rw [hutc] at h
      obtain rfl : m' = m := Except.ok.inj h
      exact (Moment.ofInstant?_eq_some hutc).1

theorem isZoned_of_readDate {ps : List DatePattern} {t : Text} {m : Moment}
    (h : readDate ps t = .ok m) : m.isZoned = true := by
  rw [Moment.isZoned, offset?_of_readDate h]
  rfl

theorem Offset.offset?_short (o : Offset) (colon : Bool) :
    (Zone.short o.behind o.hours o.minutes colon).offset? = some o.micros := by
  have hh := o.hours_lt
  have hm := o.minutes_lt
  have hday : o.hours * microsPerHour + o.minutes * microsPerMinute < microsPerDay := by
    simp only [microsPerDay, microsPerHour, microsPerMinute, microsPerSecond]
    omega
  simp only [Zone.offset?, if_pos hday, micros]

namespace Stamp

/-- The fields of a stamp, as a pattern reads them. -/
def fields (s : Stamp) (z : Zone) : DateFields :=
  { year := s.civil.year, month := s.civil.month, day := s.civil.day
    hour := s.civil.hour, minute := s.civil.minute, second := s.civil.second, zone? := some z }

/-- A pattern that reads the fields of a stamp reads its moment. -/
theorem read?_of_firstMatch? {s : Stamp} {z : Zone} {p : DatePattern} {t : Text}
    (hmatch : p.firstMatch? {} t = some (s.fields z, [])) (hz : z.offset? = some s.offset.micros) :
    p.read? t = some ⟨s.civil, some s.offset.micros⟩ := by
  have hcivil : (⟨s.civil.year, s.civil.month, s.civil.day, s.civil.hour, s.civil.minute,
      s.civil.second, 0⟩ : Civil) = s.civil := by
    rw [← s.whole]
  simp only [DatePattern.read?, hmatch, DateFields.moment?, fields, hcivil, s.valid, if_true, hz,
    Option.map_some]

/-- A text in whose first pattern a stamp's moment is read gives what is read of the stamp. -/
theorem readDate_of_read? {s : Stamp} {p : DatePattern} {ps : List DatePattern} {t : Text}
    (hread : p.read? t.trim = some ⟨s.civil, some s.offset.micros⟩) :
    readDate (p :: ps) t = s.reading := by
  have hutc : Moment.toUtc? ⟨s.civil, some s.offset.micros⟩ =
      if s.InRange then some s.utc else none := rfl
  simp only [readDate, List.findSome?_cons, hread, hutc, reading]
  by_cases hs : s.InRange
  · simp only [if_pos hs]
  · simp only [if_neg hs]

end Stamp

end Annals

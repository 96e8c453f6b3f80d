import Annals.Text.Basic

/-!
# The civil calendar

Civil times of the Gregorian calendar, extended backwards, in the years 1 to 9999, and their exact
count of microseconds since the start of year 1. `Civil.micros` counts; `Civil.ofMicros` finds the
civil time of a count.
-/

namespace Annals

structure Civil where
  year : Nat
  month : Nat
  day : Nat
  hour : Nat := 0
  minute : Nat := 0
  second : Nat := 0
  micro : Nat := 0
  deriving DecidableEq, Repr

/-- The first year that a civil time may lie in. -/
def firstYear : Nat := 1

/-- The last year that a civil time may lie in. -/
def lastYear : Nat := 9999

/-- Whether a year has a 29th of February. -/
def isLeap (y : Nat) : Bool := y % 4 == 0 && (y % 100 != 0 || y % 400 == 0)

/-- The lengths of the months of a year. -/
def monthLengths (leap : Bool) : List Nat :=
  [31, if leap then 29 else 28, 31, 30, 31, 30, 31, 31, 30, 31, 30, 31]

/-- The number of days in a month of a year; 0 if there is no such month. -/
def daysInMonth (y m : Nat) : Nat :=
  if m = 0 then 0 else ((monthLengths (isLeap y))[m - 1]?).getD 0

/-- The number of days before the first of January, counted from that of year 1. -/
def daysBeforeYear (y : Nat) : Nat :=
  let p := y - 1
  365 * p + p / 4 - p / 100 + p / 400

/-- The number of days of a year before the first of a month. -/
def daysBeforeMonth (y m : Nat) : Nat :=
  ((monthLengths (isLeap y)).take (m - 1)).foldr (· + ·) 0

def microsPerSecond : Nat := 1000000

def microsPerMinute : Nat := 60 * microsPerSecond

def microsPerHour : Nat := 60 * microsPerMinute

def microsPerDay : Nat := 24 * microsPerHour

/-- The count at which the year after the last one begins. -/
def endOfTime : Nat := daysBeforeYear (lastYear + 1) * microsPerDay

namespace Civil

/-- Whether the fields name a day and a time of day in the years 1 to 9999. -/
def isValid (c : Civil) : Bool :=
  firstYear ≤ c.year && c.year ≤ lastYear && 1 ≤ c.day && c.day ≤ daysInMonth c.year c.month &&
    c.hour < 24 && c.minute < 60 && c.second < 60 && c.micro < microsPerSecond

/-- The days from the first of January of year 1 to the date. -/
def days (c : Civil) : Nat := daysBeforeYear c.year + daysBeforeMonth c.year c.month + (c.day - 1)

/-- The microseconds from midnight to the time of day. -/
def microsOfDay (c : Civil) : Nat :=
  c.hour * microsPerHour + c.minute * microsPerMinute + c.second * microsPerSecond + c.micro

/-- The microseconds from the start of year 1 to the civil time. -/
def micros (c : Civil) : Nat := c.days * microsPerDay + c.microsOfDay

/-- The year that holds a day, counted from the first of January of year 1, and the day in it. -/
def yearOfDay (n : Nat) : Nat × Nat :=
  let n400 := n / 146097
  let r := n % 146097
  let n100 := min 3 (r / 36524)
  let r := r - n100 * 36524
  let n4 := r / 1461
  let r := r % 1461
  let n1 := min 3 (r / 365)
  (400 * n400 + 100 * n100 + 4 * n4 + n1 + 1, r - n1 * 365)

/-- The month that holds a day of a year, given the lengths of the months left and the number of the
first of them, and the day in it. -/
def monthOfDay : List Nat → (month day : Nat) → Nat × Nat
  | [], m, d => (m, d)
  | len :: lens, m, d => if d < len then (m, d) else monthOfDay lens (m + 1) (d - len)

/-- The civil time at a count of microseconds since the start of year 1. -/
def ofMicros (n : Nat) : Civil :=
  let (year, dayOfYear) := yearOfDay (n / microsPerDay)
  let (month, day) := monthOfDay (monthLengths (isLeap year)) 1 dayOfYear
  let t := n % microsPerDay
  { year, month, day := day + 1
    hour := t / microsPerHour
    minute := t % microsPerHour / microsPerMinute
    second := t % microsPerMinute / microsPerSecond
    micro := t % microsPerSecond }

end Civil

end Annals

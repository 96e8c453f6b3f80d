import Annals.Date.Calendar

/-!
# Moments

A moment is a civil time with the offset of its clock from UTC, if that is known. `Moment.instant`
is the exact point in time, and two moments with known offsets are ordered by it. Moments have two
written forms: `Moment.iso`, which keeps every field, and `Moment.display`, for people.
-/

namespace Annals

structure Moment where
  civil : Civil
  /-- How far the clock is ahead of UTC in microseconds, if known. -/
  offset? : Option Int
  deriving DecidableEq, Repr

namespace Moment

def utc (c : Civil) : Moment := ⟨c, some 0⟩

/-- The microseconds from the start of year 1 in UTC; a clock of unknown offset is read as UTC. -/
def instant (m : Moment) : Int := (m.civil.micros : Int) - m.offset?.getD 0

/-- The moment in UTC at an instant, if it lies in the years 1 to 9999. -/
def ofInstant? (i : Int) : Option Moment :=
  if 0 ≤ i ∧ i < endOfTime then some (utc (Civil.ofMicros i.toNat)) else none

/-- The same instant in UTC, if it lies in the years 1 to 9999. -/
def toUtc? (m : Moment) : Option Moment := ofInstant? m.instant

/-- Whether the offset of the clock is known. -/
def isZoned (m : Moment) : Bool := m.offset?.isSome

/-- An offset: sign, hours and minutes, then seconds and microseconds if they are not zero. -/
def offsetText (offset : Int) : Text :=
  let n := offset.natAbs
  let seconds := n % microsPerMinute / microsPerSecond
  let micros := n % microsPerSecond
  (if offset < 0 then "-" else "+") ++ Text.ofNatPadded 2 (n / microsPerHour) ++ ":" ++
    Text.ofNatPadded 2 (n % microsPerHour / microsPerMinute) ++
    (if seconds = 0 ∧ micros = 0 then [] else ':' :: Text.ofNatPadded 2 seconds) ++
    (if micros = 0 then [] else '.' :: Text.ofNatPadded 6 micros)

/-- Hours, minutes and seconds of a civil time. -/
def clockText (c : Civil) : Text :=
  Text.ofNatPadded 2 c.hour ++ ":" ++ Text.ofNatPadded 2 c.minute ++ ":" ++
    Text.ofNatPadded 2 c.second

def monthDayText (c : Civil) : Text :=
  Text.ofNatPadded 2 c.month ++ "-" ++ Text.ofNatPadded 2 c.day

/-- The form that keeps every field: date and time joined by a T, the fraction if it is not zero,
and the offset if it is known. -/
def iso (m : Moment) : Text :=
  let c := m.civil
  Text.ofNatPadded 4 c.year ++ "-" ++ monthDayText c ++ "T" ++ clockText c ++
    (if c.micro = 0 then [] else '.' :: Text.ofNatPadded 6 c.micro) ++
    (match m.offset? with
      | none => []
      | some o => offsetText o)

/-- The name of a clock: UTC, followed by its offset if that is not zero. -/
def zoneName (m : Moment) : Text :=
  match m.offset? with
  | none => []
  | some o => if o = 0 then "UTC" else "UTC" ++ offsetText o

/-- The form for people: date, time without fraction, and the name of the clock. The year is not
padded. -/
def display (m : Moment) : Text :=
  let c := m.civil
  Text.ofNat c.year ++ "-" ++ monthDayText c ++ " " ++ clockText c ++ " " ++ m.zoneName

end Moment

end Annals

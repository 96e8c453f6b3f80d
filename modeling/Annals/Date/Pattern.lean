import Annals.Date.Moment
import Annals.Text.Blank
import Annals.Text.Case
import Annals.Text.Digit

/-!
# Date patterns

A pattern describes how a date is written: numbers of fixed ranges, blanks and literal characters. A
text is matched from its front, with the alternatives of each item tried in a fixed order, and the
first way to match all items counts. It has to use up the whole text, it is not tried further, and the
fields it gives have to name a valid time with a clock less than a day from UTC.

`readDate` trims a text, takes the first pattern that reads it and converts to UTC.
-/

namespace Annals

/-- Why a text is not read as a date. -/
inductive DateError where
  | unparseable (text : Text)
  /-- The instant lies outside the years 1 to 9999. -/
  | outOfRange
  deriving DecidableEq, Repr

/-- The ways to read something at the front of a text, best first, each with the text after it. -/
abbrev Matcher (α : Type) := Text → List (α × Text)

namespace Matcher

variable {α β : Type}

/-- Reads one thing and then another that may depend on it. -/
def andThen (p : Matcher α) (f : α → Matcher β) : Matcher β := fun t =>
  (p t).flatMap fun (a, rest) => f a rest

/-- Reads in the first way, or else in the second. -/
def orElse (p q : Matcher α) : Matcher α := fun t => p t ++ q t

def pure (a : α) : Matcher α := fun t => [(a, t)]

def map (f : α → β) (p : Matcher α) : Matcher β := fun t => (p t).map fun (a, rest) => (f a, rest)

def one (f : Char → Option α) : Matcher α
  | [] => []
  | c :: cs =>
    match f c with
    | some a => [(a, cs)]
    | none => []

/-- Reads a digit of any script. -/
def digit : Matcher Nat := one digitValue?

def digitIn (low high : Char) : Matcher Nat :=
  one fun c => if low ≤ c ∧ c ≤ high then some (c.toNat - '0'.toNat) else none

def char (c : Char) : Matcher Unit := one fun d => if d = c then some () else none

def pair (tens ones : Matcher Nat) : Matcher Nat :=
  tens.andThen fun t => ones.map fun o => 10 * t + o

/-- Reads a character if it can, and says whether it did. -/
def option (c : Char) : Matcher Bool := ((char c).map fun _ => true).orElse (pure false)

def digits : Nat → Matcher Nat
  | 0 => pure 0
  | n + 1 => (digits n).andThen fun a => digit.map fun d => 10 * a + d

/-- Reads between one and `n` digits as a fraction of a number of `places` digits, the most first. -/
def fraction (places : Nat) : Nat → Matcher Nat
  | 0 => fun _ => []
  | n + 1 =>
    ((digits (n + 1)).map fun a => a * 10 ^ (places - (n + 1))).orElse (fraction places n)

/-- The texts after more and more blanks, longer runs put before shorter ones. -/
def blanksAfter (shorter : List (Unit × Text)) : Matcher Unit
  | [] => shorter
  | c :: cs => if isBlank c then blanksAfter (((), cs) :: shorter) cs else shorter

/-- Reads one or more blanks, the most first. -/
def blanks : Matcher Unit := blanksAfter []

end Matcher

/-- An offset as it is written. -/
inductive Zone where
  | zulu
  /-- A sign, hours and minutes, and whether a colon stands between them. -/
  | short (negative : Bool) (hours minutes : Nat) (colon : Bool)
  /-- The same with seconds and microseconds, and whether a colon stands before the seconds. -/
  | long (negative : Bool) (hours minutes : Nat) (colon : Bool) (secondColon : Bool)
      (seconds micros : Nat)
  deriving DecidableEq, Repr

namespace Zone

open Matcher

/-- Reads an offset, in its longest form first. -/
def matcher : Matcher Zone :=
  let minuteLike := pair (digitIn '0' '5') digit
  let sign := ((char '+').map fun _ => false).orElse ((char '-').map fun _ => true)
  let signed :=
    sign.andThen fun negative => (pair digit digit).andThen fun h =>
      (option ':').andThen fun colon => minuteLike.andThen fun m =>
        let withSeconds :=
          (option ':').andThen fun secondColon => minuteLike.andThen fun s =>
            (((char '.').andThen fun _ => fraction 6 6).orElse (Matcher.pure 0)).map fun f =>
              Zone.long negative h m colon secondColon s f
        withSeconds.orElse (Matcher.pure (Zone.short negative h m colon))
  signed.orElse ((char 'Z').map fun _ => Zone.zulu)

/-- The offset in microseconds. Colons have to be used throughout or not at all, and the offset has
to be less than a day. -/
def offset? (z : Zone) : Option Int :=
  let total (negative : Bool) (n : Nat) : Option Int :=
    if n < microsPerDay then some (if negative then -(n : Int) else n) else none
  match z with
  | .zulu => some 0
  | .short negative h m _ => total negative (h * microsPerHour + m * microsPerMinute)
  | .long negative h m colon secondColon s f =>
    if colon = secondColon then
      total negative (h * microsPerHour + m * microsPerMinute + s * microsPerSecond + f)
    else none

end Zone

/-- The fields that a pattern has read; those it does not mention keep their defaults. -/
structure DateFields where
  year : Nat := 1900
  month : Nat := 1
  day : Nat := 1
  hour : Nat := 0
  minute : Nat := 0
  second : Nat := 0
  zone? : Option Zone := none
  deriving DecidableEq, Repr

/-- The moment that fields name, if they are valid. A date without an offset is in UTC. -/
def DateFields.moment? (f : DateFields) : Option Moment :=
  let civil : Civil :=
    { year := f.year, month := f.month, day := f.day
      hour := f.hour, minute := f.minute, second := f.second }
  if civil.isValid then
    match f.zone? with
    | none => some (Moment.utc civil)
    | some z => z.offset?.map fun o => ⟨civil, some o⟩
  else none

inductive DateItem where
  | year
  | month
  | day
  | hour
  | minute
  | second
  | zone
  | blanks
  | literal (c : Char)
  deriving DecidableEq, Repr

namespace DateItem

open Matcher

/-- Reads the item and sets the field that it gives. -/
def matcher : DateItem → Matcher (DateFields → DateFields)
  | year => (digits 4).map fun n f => { f with year := n }
  | month =>
    ((((char '1').andThen fun _ => (digitIn '0' '2').map (10 + ·)).orElse
      ((char '0').andThen fun _ => digitIn '1' '9')).orElse
        (digitIn '1' '9')).map fun n f => { f with month := n }
  | day =>
    ((((((char '3').andThen fun _ => (digitIn '0' '1').map (30 + ·)).orElse
      (pair (digitIn '1' '2') digit)).orElse
        ((char '0').andThen fun _ => digitIn '1' '9')).orElse
          (digitIn '1' '9')).orElse
            ((char ' ').andThen fun _ => digitIn '1' '9')).map fun n f => { f with day := n }
  | hour =>
    ((((char '2').andThen fun _ => (digitIn '0' '3').map (20 + ·)).orElse
      (pair (digitIn '0' '1') digit)).orElse digit).map fun n f => { f with hour := n }
  | minute =>
    ((pair (digitIn '0' '5') digit).orElse digit).map fun n f => { f with minute := n }
  | second =>
    ((((char '6').andThen fun _ => (digitIn '0' '1').map (60 + ·)).orElse
      (pair (digitIn '0' '5') digit)).orElse digit).map fun n f => { f with second := n }
  | zone => Zone.matcher.map fun z f => { f with zone? := some z }
  | .blanks => Matcher.blanks.map fun _ f => f
  | literal l => (one fun c => if agreeButForCase l c then some () else none).map fun _ f => f

end DateItem

/-- How a date is written. -/
abbrev DatePattern := List DateItem

namespace DatePattern

/-- The first way to match all items at the front of a text: the fields and the text after them. -/
def firstMatch? : DatePattern → DateFields → Text → Option (DateFields × Text)
  | [], f, t => some (f, t)
  | item :: items, f, t =>
    (item.matcher t).findSome? fun (set, rest) => firstMatch? items (set f) rest

/-- The moment that a text writes in the pattern. -/
def read? (p : DatePattern) (t : Text) : Option Moment :=
  match firstMatch? p {} t with
  | some (f, []) => f.moment?
  | _ => none

/-- The item of a letter after a percent sign. -/
def directive? : Char → Option DateItem
  | 'Y' => some .year
  | 'm' => some .month
  | 'd' => some .day
  | 'H' => some .hour
  | 'M' => some .minute
  | 'S' => some .second
  | 'z' => some .zone
  | '%' => some (.literal '%')
  | _ => none

/-- The pattern that a text describes: items after percent signs, blanks and literals. None if a
percent sign stands before anything else. -/
def ofText? : Text → Option DatePattern
  | [] => some []
  | '%' :: c :: cs => do
    let item ← directive? c
    let items ← ofText? cs
    return item :: items
  | c :: cs => do
    if c = '%' then none
    let items ← ofText? cs
    if isBlank c then
      return if items.head? = some .blanks then items else .blanks :: items
    else
      return .literal c :: items

end DatePattern

/-- The date that a text writes in the first pattern that reads it, in UTC. -/
def readDate (patterns : List DatePattern) (text : Text) : Except DateError Moment :=
  match patterns.findSome? fun p => p.read? text.trim with
  | none => .error (.unparseable text)
  | some m =>
    match m.toUtc? with
    | none => .error .outOfRange
    | some m => .ok m

end Annals

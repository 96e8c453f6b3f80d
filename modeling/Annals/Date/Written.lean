import Annals.Failure

/-!
# Dates in patterns as they are written

Patterns that are given as texts are taken in turn. A text that is no pattern reads no date. A pattern
that repeats an item is refused when its turn comes, before any text is matched with it.
-/

namespace Annals

/-- Reads a trimmed text in the first pattern that reads it. -/
def firstReading (text : Text) : List DatePattern → Except Failure (Option Moment)
  | [] => .ok none
  | p :: ps =>
    match p.repetition? with
    | some r => .error (.repeatedItem r)
    | none =>
      match p.read? text with
      | some m => .ok (some m)
      | none => firstReading text ps

/-- Reads a date in patterns as they are written, and converts it to UTC. -/
def readDateIn (patterns : List Text) (text : Text) : Except Failure Moment := do
  match ← firstReading text.trim (patterns.filterMap DatePattern.ofText?) with
  | none => throw (.badDate text)
  | some m =>
    match m.toUtc? with
    | none => throw .dateOutOfRange
    | some m => return m

end Annals

import Annals.Date.Pattern
import Annals.History.Reader

/-!
# What headers open

The headers of all tools have a date among their fields, and what a header opens is decided by it: a
header without one is dropped, as is one whose date no pattern reads, and reading fails if the date leaves
the years 1 to 9999 when it is converted to UTC. `Opened.ByDate` lists these cases, and `Opened.Refused`
the reasons for which a header is dropped.
-/

namespace Annals.Opened

variable {π : Type} {ps : List DatePattern} {date? : Option Text} {o : Opened π}

/-- What a header may open, by the date in it. -/
inductive ByDate (ps : List DatePattern) : Option Text → Opened π → Prop where
  | missing {note : Note} (level : note.level = .warning) : ByDate ps none (.dropped note)
  | read {date : Text} {m : Moment} {p : π} (read : readDate ps date = .ok m) :
      ByDate ps (some date) (.record p)
  | unparseable {date t : Text} {note : Note} (read : readDate ps date = .error (.unparseable t))
      (level : note.level = .warning) : ByDate ps (some date) (.dropped note)
  | overflow {date : Text} (read : readDate ps date = .error .outOfRange) :
      ByDate ps (some date) (.failed .dateOutOfRange)

/-- Why a header is dropped: it has not all its fields, so that there is no date in it, or no pattern reads
its date. -/
inductive Refused (ps : List DatePattern) : Option Text → Prop where
  | malformed : Refused ps none
  | unreadable {date t : Text} (read : readDate ps date = .error (.unparseable t)) :
      Refused ps (some date)

@[simp] theorem refused_none : Refused ps none := .malformed

@[simp] theorem refused_some_iff {date : Text} :
    Refused ps (some date) ↔ ∃ t, readDate ps date = .error (.unparseable t) :=
  ⟨fun | .unreadable hread => ⟨_, hread⟩, fun ⟨_, hread⟩ => .unreadable hread⟩

namespace ByDate

/-- A date that stands in a header is read, or it is why nothing is opened. -/
theorem of_readDate {date : Text} {record : Moment → π} {note : Note} (level : note.level = .warning) :
    ByDate ps (some date)
      (match readDate ps date with
      | .ok m => .record (record m)
      | .error (.unparseable _) => .dropped note
      | .error .outOfRange => .failed .dateOutOfRange) := by
  cases hread : readDate ps date with
  | ok m => exact .read hread
  | error fault =>
    cases fault with
    | unparseable t => exact .unparseable hread level
    | outOfRange => exact .overflow hread

theorem eq_failed_iff (h : ByDate ps date? o) {f : Failure} :
    o = .failed f ↔ f = .dateOutOfRange ∧
      ∃ date, date? = some date ∧ readDate ps date = .error .outOfRange := by
  cases h with
  | missing => simp
  | read hread => simp [hread]
  | unparseable hread => simp [hread]
  | overflow hread => simp [hread, eq_comm]

theorem exists_eq_dropped_iff (h : ByDate ps date? o) :
    (∃ note, o = .dropped note) ↔ Refused ps date? := by
  cases h with
  | missing => simp
  | read hread => simp [hread]
  | unparseable hread => simp [hread]
  | overflow hread => simp [hread]

theorem level_of_eq (h : ByDate ps date? o) {note : Note} (ho : o = .dropped note) :
    note.level = .warning := by
  subst ho
  cases h with
  | missing level => exact level
  | unparseable _ level => exact level

end ByDate

end Annals.Opened

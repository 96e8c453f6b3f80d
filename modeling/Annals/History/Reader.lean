import Annals.Failure
import Annals.History.Entry
import Annals.Process.Execute

/-!
# Reading a history from lines

The output of a log command is a sequence of records: a header line and the lines up to the next
header. How headers are recognised and read and what the other lines add differs between tools and is
given by a `HistoryFormat`. The reader itself is one for all of them.

A record is pending from its header on and is closed by the next header or when the history is first
asked for. A closed record becomes an entry unless the caller excluded its revision or an entry of that
revision is there; the second case is noted. A header that cannot be read leaves no record pending, so
that the lines after it are ignored.
-/

namespace Annals

inductive Opened (π : Type) where
  | record (pending : π)
  /-- Nothing, for the noted reason. -/
  | dropped (note : Note)
  /-- Nothing, and reading fails. -/
  | failed (failure : Failure)

/-- How a tool writes the records of a history. -/
structure HistoryFormat (π : Type) where
  /-- The text of a header line behind its marker; none for other lines. -/
  header? : Text → Option Text
  opens : Text → Opened π
  /-- What a line that is no header adds to the pending record. -/
  extend : π → Text → π
  /-- The notes about a line that is no header. -/
  remarks : Text → List Note
  entry : π → Entry
  /-- Whether a bound given by the caller excludes a revision. -/
  excludes : (since revision : Text) → Bool
  /-- The note about a record whose revision has an entry. -/
  duplicate : Text → Note

structure HistoryReader (π : Type) where
  /-- The bound given by the caller. -/
  since : Option Text := none
  entries : History := []
  /-- The record that the next lines belong to. -/
  pending? : Option π := none
  /-- Whether the history has been asked for. -/
  asked : Bool := false

namespace HistoryReader

variable {π : Type}

def isExcluded (F : HistoryFormat π) (r : HistoryReader π) (revision : Text) : Bool :=
  match r.since with
  | none => false
  | some since => F.excludes since revision

def close (F : HistoryFormat π) (r : HistoryReader π) : HistoryReader π × List Note :=
  match r.pending? with
  | none => (r, [])
  | some p =>
    let e := F.entry p
    let r := { r with pending? := none }
    if r.isExcluded F e.revision then (r, [])
    else if e.revision ∈ r.entries.revisions then (r, [F.duplicate e.revision])
    else ({ r with entries := r.entries ++ [e] }, [])

def feed (F : HistoryFormat π) (r : HistoryReader π) (line : Text) :
    Fed (HistoryReader π) Failure :=
  match F.header? line with
  | none => ⟨{ r with pending? := r.pending?.map fun p => F.extend p line }, F.remarks line, none⟩
  | some header =>
    let (r, notes) := r.close F
    match F.opens header with
    | .record p => ⟨{ r with pending? := some p }, notes, none⟩
    | .dropped note => ⟨r, notes ++ [note], none⟩
    | .failed f => ⟨r, notes, some f⟩

/-- The history read so far. The first time it is asked for, the pending record is closed. -/
def history (F : HistoryFormat π) (r : HistoryReader π) :
    History × HistoryReader π × List Note :=
  if r.asked then (r.entries, r, [])
  else
    let (r, notes) := r.close F
    (r.entries, { r with asked := true }, notes)

end HistoryReader

end Annals

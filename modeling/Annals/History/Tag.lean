import Annals.Assoc
import Annals.History.Entry
import Annals.Shelf

/-!
# Tags

A tag record says which names a revision carries and when it was made. Tag records are ordered by
instant, then revision, then names. `assignTags?` gives every entry of a history the names of the
records for its commit, in the order of the records, and leaves all else as it is.
-/

namespace Annals

structure Tag (τ : Type := Text) where
  date : Moment
  revision : τ
  names : List τ := []
  deriving DecidableEq, Repr

namespace Tag

/-- The record with another text for each of its texts. -/
def mapTexts {τ σ : Type} (f : τ → σ) (t : Tag τ) : Tag σ :=
  { date := t.date, revision := f t.revision, names := t.names.map f }

/-- Whether a record comes before another or is level with it: by instant, then revision, then
names. -/
def le (a b : Tag) : Bool :=
  if a.date.instant ≠ b.date.instant then a.date.instant < b.date.instant
  else if a.revision ≠ b.revision then a.revision < b.revision
  else !decide (b.names < a.names)

/-- The records in order; level records keep their places. -/
def sort (tags : List Tag) : List Tag := tags.mergeSort le

/-- The records in order, unless some clocks are known and others are not: such records cannot be
compared. -/
def sort? (tags : List Tag) : Option (List Tag) :=
  if tags.all (·.date.isZoned) || tags.all (!·.date.isZoned) then some (sort tags) else none

theorem sort?_of_isZoned {tags : List Tag} (h : ∀ tag ∈ tags, tag.date.isZoned = true) :
    sort? tags = some (sort tags) := by
  have hall : tags.all (·.date.isZoned) = true := List.all_eq_true.2 h
  rw [sort?, hall]
  rfl

/-- The names that the records give to a revision, in the order of the records. -/
def namesOf (tags : List Tag) (revision : Text) : List Text :=
  (tags.filter (·.revision = revision)).flatMap (·.names)

/-- The names that the records give to each revision, gathered in one pass. -/
def namesByRevision (tags : List Tag) : Assoc Text (List Text) :=
  tags.foldl (fun names tag => names.extend tag.revision tag.names) []

end Tag

/-- The entry with the names that are known for its commit, or unchanged if there are none. -/
def Entry.assignTags (names : Assoc Text (List Text)) (e : Entry) : Entry :=
  match names.get? e.tagRevision with
  | some (n :: ns) => e.withTags (n :: ns)
  | _ => e

/-- The history with tags assigned; none if there is no record, so that nothing has to be done. -/
def History.assignTags? (h : History) (tags : List Tag) : Option History :=
  let names := Tag.namesByRevision tags
  if names.isEmpty then none else some (h.map (Entry.assignTags names))

def History.assignTags (h : History) (tags : List Tag) : History := (h.assignTags? tags).getD h

/-- Assigns tags to the history at a place. The tagged history is put at a new place; if nothing has to
be done, it is the history itself. -/
def Shelf.assignTags (shelf : Shelf Entry) (place : Nat) (tags : List Tag) : Nat × Shelf Entry :=
  match (shelf.read? place).bind (History.assignTags? · tags) with
  | some tagged => (shelf.next, shelf.add tagged)
  | none => (place, shelf)

end Annals

import Annals.Date.Moment

/-!
# History entries

A history is the list of the revisions of one file, newest first. A revision may be numbered apart
from the commit that it belongs to; the commit is then its changeset.

The texts of an entry are of any one type: of texts, where nothing else is said.
-/

namespace Annals

structure Entry (τ : Type := Text) where
  revision : τ
  author : τ
  date : Moment
  message : List τ := []
  path : Option τ := none
  /-- The path before the revision, if the revision renamed the file. -/
  renamedFrom : Option τ := none
  tags : List τ := []
  /-- The commit that the revision belongs to, where commits are numbered apart. -/
  changeset : Option τ := none
  deriving DecidableEq, Repr

/-- The revisions of one file, newest first. -/
abbrev History (τ : Type := Text) := List (Entry τ)

namespace Entry

/-- The revision that tags name: the changeset, if there is one that is not empty. -/
def tagRevision (e : Entry) : Text :=
  match e.changeset with
  | some (c :: cs) => c :: cs
  | _ => e.revision

def messageText (e : Entry) : Text := Text.join "\n" e.message

def withTags (e : Entry) (tags : List Text) : Entry := { e with tags }

/-- The entry with another text for each of its texts. -/
def mapTexts {τ σ : Type} (f : τ → σ) (e : Entry τ) : Entry σ :=
  { revision := f e.revision
    author := f e.author
    date := e.date
    message := e.message.map f
    path := e.path.map f
    renamedFrom := e.renamedFrom.map f
    tags := e.tags.map f
    changeset := e.changeset.map f }

end Entry

namespace History

def revisions (h : History) : List Text := h.map (·.revision)

def mapTexts {τ σ : Type} (f : τ → σ) (h : History τ) : History σ := h.map (Entry.mapTexts f)

end History

end Annals

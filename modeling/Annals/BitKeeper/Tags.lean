import Annals.BitKeeper.Log
import Annals.History.Tag

/-!
# BitKeeper tags

Tags are printed with a format of our own: a header line that starts with `D`, with revision and date
between tabs, and a line that starts with `T` for each tag of that revision. A header that cannot be
read hides the tags after it, and a revision without tags gives no record.
-/

namespace Annals.BitKeeper

structure TagReader where
  /-- The records so far, each once. -/
  records : List Tag := []
  /-- The record that the next lines belong to. -/
  pending? : Option Tag := none
  deriving DecidableEq, Repr

namespace TagReader

/-- Closes the pending record. It counts if it has names and is not there yet. -/
def close (r : TagReader) : TagReader :=
  match r.pending? with
  | none => r
  | some tag =>
    if tag.names = [] ∨ tag ∈ r.records then { r with pending? := none }
    else { records := r.records ++ [tag], pending? := none }

def openRecord (header : Text) : Opened Tag :=
  match Text.fields '\t' header with
  | revision :: date :: _ =>
    match readDate [datePattern] date with
    | .ok date => .record { date, revision }
    | .error (.unparseable _) =>
      .dropped (.warning .bitkeeperRecords
        ("Dropping bk tags record " ++ revision ++ " with bad date: " ++ date.quoted))
    | .error .outOfRange => .failed .dateOutOfRange
  | _ =>
    .dropped (.warning .bitkeeperRecords ("Dropping malformed bk tags record: " ++ header.quoted))

def name (r : TagReader) (name : Text) : TagReader :=
  if name.isEmpty then r
  else { r with pending? := r.pending?.map fun tag => { tag with names := tag.names ++ [name] } }

def feed (r : TagReader) (line : Text) : Fed TagReader Failure :=
  match marked? 'D' line with
  | some header =>
    let r := r.close
    match openRecord header with
    | .record tag => ⟨{ r with pending? := some tag }, [], none⟩
    | .dropped note => ⟨r, [note], none⟩
    | .failed f => ⟨r, [], some f⟩
  | none =>
    match marked? 'T' line with
    | some t => ⟨r.name t, [], none⟩
    | none => ⟨r, ignored "bk tags" line, none⟩

/-- The records read so far in order. Asking for them closes the pending record. -/
def tags (r : TagReader) : List Tag × TagReader :=
  let r := r.close
  (Tag.sort r.records, r)

end TagReader

end Annals.BitKeeper

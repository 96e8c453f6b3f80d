import Annals.Assoc
import Annals.Git.Log
import Annals.History.Tag

/-!
# Git tags

Each line is the object of a tag, the commit it stands for if it is another object, the date and the
name, with tabs between them. The tags of a commit make one record, dated by the latest of them.
-/

namespace Annals.Git

structure TagReader where
  /-- The names and the latest date of each commit. -/
  commits : Assoc Text (Moment × List Text) := []
  deriving DecidableEq, Repr

namespace TagReader

def add (r : TagReader) (revision name : Text) (date : Moment) : TagReader :=
  match r.commits.get? revision with
  | none => ⟨r.commits.put revision (date, [name])⟩
  | some (latest, names) =>
    let latest := if latest.instant < date.instant then date else latest
    ⟨r.commits.put revision (latest, names ++ [name])⟩

def feed (r : TagReader) (line : Text) : Fed TagReader Failure :=
  if line.isEmpty then ⟨r, [], none⟩
  else
    match Text.fieldsUpTo '\t' 3 line with
    | [object, peeled, date, name] =>
      match readDate datePatterns date with
      | .ok date => ⟨r.add (if peeled.isEmpty then object else peeled) name date, [], none⟩
      | .error (.unparseable _) =>
        ⟨r, [.warning .gitRecords
          ("Dropping git tag " ++ name ++ " with bad date: " ++ date.quoted)], none⟩
      | .error .outOfRange => ⟨r, [], some .dateOutOfRange⟩
    | _ => ⟨r, [.warning .gitRecords ("Dropping malformed git tag line: " ++ line.quoted)], none⟩

/-- The records read so far in order, the names of each in order. -/
def tags (r : TagReader) : List Tag :=
  Tag.sort (r.commits.map fun (revision, date, names) =>
    { date, revision, names := names.mergeSort Text.le })

end TagReader

end Annals.Git

import Annals.History.Reader

/-!
# BitKeeper logs

A log is printed with a format of our own: a header line that starts with `D`, with path, revision,
date, author, and optionally changeset and former path between tabs, and a line that starts with `C`
for each line of the comment. The changeset is empty for a revision that is not yet committed.
-/

namespace Annals.BitKeeper

/-- The way BitKeeper writes dates in our formats. -/
def datePattern : DatePattern :=
  [.year, .literal '-', .month, .literal '-', .day, .blanks, .hour, .literal ':', .minute,
    .literal ':', .second, .blanks, .literal 'G', .literal 'M', .literal 'T', .zone]

/-- The text of a line behind a letter and a blank, or of a line that is the letter alone. -/
def marked? (letter : Char) (line : Text) : Option Text :=
  match line with
  | [c] => if c = letter then some [] else none
  | c :: d :: rest => if c = letter ∧ d = ' ' then some rest else none
  | [] => none

/-- The note about a line that has no meaning in an output. -/
def ignored (output line : Text) : List Note :=
  if line.isEmpty then []
  else [.debug .bitkeeperRecords ("Ignoring unexpected " ++ output ++ " line: " ++ line.quoted)]

/-- A field that is left empty when there is nothing to say. -/
def field? (fields : List Text) (n : Nat) : Option Text :=
  match fields[n]? with
  | some (c :: cs) => some (c :: cs)
  | _ => none

def openRecord (header : Text) : Opened Entry :=
  match Text.fields '\t' header with
  | path :: revision :: date :: author :: more =>
    match readDate [datePattern] date with
    | .ok date =>
      .record
        { revision, author, date, path := some path
          changeset := field? more 0, renamedFrom := field? more 1 }
    | .error (.unparseable _) =>
      .dropped (.warning .bitkeeperRecords
        ("Dropping bk log record " ++ revision ++ " with bad date: " ++ date.quoted))
    | .error .outOfRange => .failed .dateOutOfRange
  | _ =>
    .dropped (.warning .bitkeeperRecords ("Dropping malformed bk log record: " ++ header.quoted))

def logFormat : HistoryFormat Entry where
  header? := marked? 'D'
  opens := openRecord
  extend e line :=
    match marked? 'C' line with
    | some comment => { e with message := e.message ++ [comment] }
    | none => e
  remarks line :=
    match marked? 'C' line with
    | some _ => []
    | none => ignored "bk log" line
  entry e := e
  excludes since revision := revision = since
  duplicate revision :=
    .warning .bitkeeperRecords ("Dropping duplicate bk log record for revision " ++ revision)

end Annals.BitKeeper

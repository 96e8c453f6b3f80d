import Annals.History.Reader

/-!
# Git logs

A log is printed with a format of our own: a header line behind a record separator, with revision, date
and author between tabs, then the message up to a unit separator, then lines that say what happened to
the file. Blank lines at the end of the message do not belong to it.
-/

namespace Annals.Git

/-- The ways Git writes dates in our formats: strict, and as older versions do. -/
def datePatterns : List DatePattern :=
  let date : DatePattern := [.year, .literal '-', .month, .literal '-', .day]
  let time : DatePattern := [.hour, .literal ':', .minute, .literal ':', .second]
  [date ++ [.literal 'T'] ++ time ++ [.zone], date ++ [.blanks] ++ time ++ [.blanks, .zone]]

def recordMarker : Char := '\x1e'

def messageEnd : Char := '\x1f'

structure Commit where
  revision : Text
  date : Moment
  author : Text
  message : List Text := []
  path : Option Text := none
  renamedFrom : Option Text := none
  /-- Whether the next line belongs to the message. -/
  inMessage : Bool := true
  deriving DecidableEq, Repr

def openRecord (header : Text) : Opened Commit :=
  match Text.fieldsUpTo '\t' 2 header with
  | [revision, date, author] =>
    match readDate datePatterns date with
    | .ok date => .record { revision, date, author }
    | .error (.unparseable _) =>
      .dropped (.warning .gitRecords
        ("Dropping git log record " ++ revision ++ " with bad date: " ++ date.quoted))
    | .error .outOfRange => .failed .dateOutOfRange
  | _ => .dropped (.warning .gitRecords ("Dropping malformed git log record: " ++ header.quoted))

/-- A line without the newline that may end it; none if it holds another newline. -/
def oneLine? (line : Text) : Option Text :=
  let t := if line.getLast? = some '\n' then line.dropLast else line
  if t.contains '\n' then none else some t

/-- The texts before and after the last tab that has some text on both sides. -/
def lastTab? : Text → Option (Text × Text)
  | [] => none
  | c :: cs =>
    match lastTab? cs with
    | some (a, b) => some (c :: a, b)
    | none =>
      match cs with
      | '\t' :: d :: ds => some ([c], d :: ds)
      | _ => none

/-- What a line says that happened to the file. -/
inductive FileStatus where
  | renamed (old new : Text)
  | changed (path : Text)
  deriving DecidableEq, Repr

/-- What a line says that happened to the file: a letter, for a rename or copy also digits, and the
paths, with tabs before them. -/
def FileStatus.ofLine? (line : Text) : Option FileStatus :=
  (oneLine? line).bind fun t =>
    match t with
    | [] => none
    | letter :: rest =>
      if letter = 'R' ∨ letter = 'C' then
        match rest.dropWhile isDigit with
        | '\t' :: paths => (lastTab? paths).map fun (old, new) => renamed old new
        | _ => none
      else if letter ∈ ['A', 'M', 'D', 'T', 'U', 'X'] then
        match rest with
        | '\t' :: c :: cs => some (changed (c :: cs))
        | _ => none
      else none

namespace Commit

/-- What a line of the message adds to a record. A message that ends in the middle of a line keeps the
text before the end, if there is any. -/
def addMessage (c : Commit) (line : Text) : Commit :=
  if line.getLast? = some messageEnd then
    let text := line.dropLast
    { c with
      message := if text.isEmpty then c.message else c.message ++ [text]
      inMessage := false }
  else { c with message := c.message ++ [line] }

/-- What a line after the message adds to a record. -/
def addStatus (c : Commit) (line : Text) : Commit :=
  match FileStatus.ofLine? line with
  | some (.renamed old new) => { c with renamedFrom := some old, path := some new }
  | some (.changed path) => { c with path := some path }
  | none => c

def add (c : Commit) (line : Text) : Commit :=
  if c.inMessage then c.addMessage line else c.addStatus line

def entry (c : Commit) : Entry :=
  { revision := c.revision, author := c.author, date := c.date
    message := dropEndWhile (fun line => line.trim.isEmpty) c.message
    path := c.path, renamedFrom := c.renamedFrom }

end Commit

def logFormat : HistoryFormat Commit where
  header? line :=
    match line with
    | c :: header => if c = recordMarker then some header else none
    | [] => none
  opens := openRecord
  extend := Commit.add
  remarks _ := []
  entry := Commit.entry
  excludes since revision := !since.isEmpty && Text.startsWith since revision
  duplicate revision :=
    .warning .gitRecords ("Dropping duplicate git log record for " ++ revision)

end Annals.Git

import Annals.BitKeeper.Annotate
import Annals.BitKeeper.Log
import Annals.BitKeeper.Tags
import Annals.Git.Blame
import Annals.Git.Log
import Annals.Git.Tags
import Annals.Repository.Queries

/-!
# Histories, annotations and tags of a repository

The operations that read records from the output of a tool. A history and an annotation need the tool to
succeed; the list of tags is best-effort, and empty with a note when the tool fails. The list is made
once for a session and then kept, unless it is asked to be made again.
-/

namespace Annals

/-- The format in which BitKeeper prints the records of a log. -/
def bitkeeperLogFormat : Text :=
  "D :DPN:\\t:REV:\\t:D_: :T: GMT:TZ:\\t:USER:\\t:CSETREV:$if(:RENAME:)\x7b\\t:DPN|PARENT:\x7d\\n$each(:C:)\x7bC (:C:)\\n\x7d"

/-- The format in which BitKeeper prints tags, and the one for older versions. -/
def bitkeeperTagFormats : Text × Text :=
  ("D :REV:\\t:D_: :T: GMT:TZ:\\n$each(:TAGS:)\x7bT (:TAGS:)\\n\x7d",
    "D :REV:\\t:D_: :T: GMT:TZ:\\n$each(:TAG:)\x7bT (:TAG:)\\n\x7d")

/-- The format in which Git prints the records of a log. -/
def gitLogFormat : Text := "%x1e%H%x09%aI%x09%an <%ae>%n%B%x1f"

/-- The format in which Git prints tags, and the one for older versions. -/
def gitTagFormats : Text × Text :=
  ("%(objectname)%09%(*objectname)%09%(creatordate:iso-strict)%09%(refname:short)",
    "%(objectname)%09%(*objectname)%09%(creatordate:iso)%09%(refname:short)")

namespace Repository

/-- The arguments that list the tags in a format. -/
def tagArgs (b : Backend) (format : Text) : List Text :=
  match b with
  | .bitkeeper => ["tags", "-d" ++ format]
  | .git => ["for-each-ref", "--format=" ++ format, "refs/tags"]

/-- The formats in which a tool lists tags, the new one and the old one. -/
def tagFormats : Backend → Text × Text
  | .bitkeeper => bitkeeperTagFormats
  | .git => gitTagFormats

/-- What the tags of a tool are attached to. -/
def taggedThings : Backend → Text
  | .bitkeeper => "tagged changesets"
  | .git => "tagged commits"

/-- Runs the listing of tags and reads the records, whatever becomes of the command. -/
def streamTags (r : Repository) (w : World) (dir : Path) (args : List Text) :
    Work (List Tag × Except ProcessFailure Result) :=
  match r.backend with
  | .bitkeeper => do
    let (reader, result) ← r.stream w (some dir) args BitKeeper.TagReader.feed {}
    return (reader.tags.1, result)
  | .git => do
    let (reader, result) ← r.stream w (some dir) args Git.TagReader.feed {}
    return (reader.tags, result)

/-- Lists the tags as seen from a directory. -/
def enumerateTags (r : Repository) (w : World) (dir : Path) : Work (List Tag) := do
  let formats := tagFormats r.backend
  let format := (← r.status w).select r.backend.newTagFormat formats.1 formats.2
  let subject := "Failed to list tags in " ++ dir.toText ++ ": "
  match ← r.streamTags w dir (tagArgs r.backend format) with
  | (_, .error cause) =>
    r.complain (subject ++ cause.message)
    return []
  | (tags, .ok result) =>
    if result.code = 0 then
      r.debug ("Found " ++ Text.ofNat tags.length ++ " " ++ taggedThings r.backend ++ " in " ++
        dir.toText)
      return tags
    else
      r.complain (subject ++ result.stderr.trim)
      return []

def tagList (r : Repository) (w : World) : Work (List Tag) := do
  let s ← get
  let (tags, cell) ← s.tags.get (r.enumerateTags w r.root)
  modify fun s => { s with tags := cell }
  return tags

/-- Makes the list of tags again, as seen from a directory. -/
def rebuildTagList (r : Repository) (w : World) (dir? : Option Path) : Work Unit := do
  let (_, cell) ← Once.refresh (r.enumerateTags w (dir?.getD r.root))
  modify fun s => { s with tags := cell }

/-- The arguments that print the history of a file, or the part of it after a revision. -/
def historyArgs (b : Backend) (name : Text) (since? : Option Text) : List Text :=
  match b with
  | .bitkeeper =>
    let since : List Text :=
      match since? with
      | none => []
      | some v => ["-r" ++ v ++ ".."]
    ("log" : Text) :: (since ++ ["-d" ++ bitkeeperLogFormat, name])
  | .git =>
    let since : List Text :=
      match since? with
      | none => []
      | some v => [v ++ "..HEAD"]
    ("log" : Text) :: "--follow" :: "--name-status" :: ("--pretty=format:" ++ gitLogFormat) ::
      (since ++ [("--" : Text), name])

/-- Runs a log in a format, and reads its records if it succeeds. -/
def readHistory {π : Type} (r : Repository) (w : World) (F : HistoryFormat π) (file : Path)
    (since? : Option Text) : Work History := do
  let args := historyArgs r.backend file.name since?
  let (reader, result) ←
    r.stream w (some file.parent) args (HistoryReader.feed F) { since := since? }
  match result with
  | .error cause => throw (.unfinished ("get history for " ++ file.toText) cause)
  | .ok result =>
    if result.code ≠ 0 then r.refuse w "get history" args result
    else
      let (history, _, notes) := reader.history F
      Work.note notes
      r.debug ("Parsed " ++ Text.ofNat history.length ++ " " ++ r.backend.usualCommand ++
        " log entries for " ++ file.toText)
      return history

/-- The history of a file, or the part of it after a revision, with tags if they are shown. -/
def history (r : Repository) (w : World) (file : Path) (since? : Option Text) : Work History := do
  let file := w.files.absolute file
  let history ←
    match r.backend with
    | .bitkeeper => r.readHistory w BitKeeper.logFormat file since?
    | .git => r.readHistory w Git.logFormat file since?
  if r.config.tagsEnabled ∧ r.backend.capabilities.fileBasedTags then
    return history.assignTags (← r.tagList w)
  else return history

/-- The arguments that annotate a file at a revision, or at the latest one. -/
def annotationArgs (b : Backend) (name : Text) (revision? : Option Text) : List Text :=
  match b with
  | .bitkeeper =>
    let revision : List Text :=
      match revision? with
      | none => []
      | some v => ["-r" ++ v]
    ("annotate" : Text) :: "-aur" :: (revision ++ [name])
  | .git => ("blame" : Text) :: "--line-porcelain" :: (revision?.toList ++ [("--" : Text), name])

/-- The annotation of a file at a revision, or at the latest one. -/
def annotate (r : Repository) (w : World) (file : Path) (revision? : Option Text) :
    Work Annotation := do
  let file ← Work.lookUp (w.files.resolve file)
  let args := annotationArgs r.backend file.name revision?
  let settled (result : Except ProcessFailure Result) : Work Unit :=
    match result with
    | .error cause => throw (.unfinished ("annotate " ++ file.toText) cause)
    | .ok result => if result.code ≠ 0 then r.refuse w "annotate" args result else pure ()
  match r.backend with
  | .bitkeeper =>
    let (reader, result) ←
      r.stream w (some file.parent) args BitKeeper.AnnotationReader.feed { filename := file.name }
    settled result
    return reader.annotation
  | .git =>
    let (reader, result) ←
      r.stream w (some file.parent) args Git.BlameReader.feed { filename := file.name }
    settled result
    reader.annotation

end Repository

end Annals

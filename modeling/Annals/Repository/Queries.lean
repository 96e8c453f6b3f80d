import Annals.Repository.Basic

/-!
# Questions about a repository

The branch and the parent of a repository, whether a file is tracked, the content of a file, and
updating. Where a failed tool leaves no answer, the operation fails; the tracked-file check and the
content are best-effort instead, and answer no or nothing with a note about the failure.
-/

namespace Annals

/-- What BitKeeper prints for a repository without a parent to pull from. -/
def noParentMessage : Text := "This repository has no pull parent."

/-- What Git prints about a file that is not tracked. -/
def untrackedMessage : Text := "did not match any file(s) known to git"

/-- How an optional revision is shown in notes. -/
def revisionText (revision? : Option Text) : Text := revision?.getD "None"

namespace Repository

/-- The branch that is checked out; none if there is none, or if the tool has no branches. -/
def branch (r : Repository) (w : World) (dir? : Option Path) : Work (Option Text) :=
  match r.backend with
  | .bitkeeper => return none
  | .git => do
    let args : List Text := ["rev-parse", "--abbrev-ref", "HEAD"]
    match ← r.capture w (some (dir?.getD r.root)) args with
    | .error cause => throw (.unfinished "determine branch" cause)
    | .ok result =>
      if result.code ≠ 0 then r.refuse w "determine branch" args result
      else
        let name := result.outputText.trim
        return if name = "HEAD" then none else some name

/-- The arguments that ask for the parent of a repository. -/
def parentArgs : Backend → List Text
  | .bitkeeper => ["parent", "-1il"]
  | .git => ["config", "--get", "remote.origin.url"]

/-- Whether a status that tells of an error only says that there is no parent. BitKeeper says so in
words, Git by a status of 1 and no words at all. -/
def saysNoParent (b : Backend) (result : Result) : Bool :=
  match b with
  | .bitkeeper =>
    result.outputText.trim = noParentMessage || result.stderr.trim = noParentMessage
  | .git => result.code == 1 && result.stderr.trim.isEmpty

/-- The repository that this one is updated from. -/
def parent (r : Repository) (w : World) (dir? : Option Path) : Work (Option Text) := do
  let args := parentArgs r.backend
  match ← r.capture w (some (dir?.getD r.root)) args with
  | .error cause => throw (.unfinished "determine parent" cause)
  | .ok result =>
    if result.code = 0 then return result.outputText.trim.nonEmpty?
    else if saysNoParent r.backend result then return none
    else r.refuse w "determine parent" args result

def isTracked (r : Repository) (w : World) (file : Path) : Work Bool := do
  let file := w.files.absolute file
  let args : List Text :=
    match r.backend with
    | .bitkeeper => ["files", file.name]
    | .git => ["ls-files", "--error-unmatch", "--", file.name]
  match ← r.capture w (some file.parent) args with
  | .error cause =>
    r.complain ("Failed to check file " ++ file.toText ++ ": " ++ cause.message)
    return false
  | .ok result =>
    let failed : Work Bool := do
      r.complain ("Failed to check file " ++ file.toText ++ ": " ++ result.stderr.trim)
      return false
    match r.backend with
    | .bitkeeper => if result.code = 0 then return result.outputText.trim = file.name else failed
    | .git =>
      if result.code = 0 then return true
      else if Text.occursIn untrackedMessage result.stderr then
        r.debug ("Not tracked by git: " ++ file.toText)
        return false
      else failed

/-- Whether the lines of a file can be traced: those of every tracked file can. -/
def isAnnotatable (r : Repository) (w : World) (file : Path) : Work Bool := r.isTracked w file

/-- The arguments that print a file at a revision, or at the latest one. -/
def contentArgs (b : Backend) (name : Text) (revision? : Option Text) : List Text :=
  match b with
  | .bitkeeper =>
    let revision : List Text :=
      match revision? with
      | none => []
      | some v => ["-r" ++ v]
    ("get" : Text) :: "-p" :: (revision ++ [name])
  | .git =>
    ["show", ((revision?.bind Text.nonEmpty?).getD "HEAD") ++ ":./" ++ name]

/-- The content of a file in a directory at a revision, or at the latest one. -/
def content (r : Repository) (w : World) (dir : Path) (name : Text) (revision? : Option Text) :
    Work (Option Bytes) := do
  let subject := "Failed to get " ++ name ++ "@" ++ revisionText revision? ++ ": "
  match ← r.capture w (some (w.files.absolute dir)) (contentArgs r.backend name revision?) with
  | .error cause =>
    r.complain (subject ++ cause.message)
    return none
  | .ok result =>
    if result.code = 0 then return some result.stdout
    else
      r.complain (subject ++ result.stderr.trim)
      return none

def update (r : Repository) (w : World) : Work Unit :=
  match r.backend with
  | .bitkeeper => throw .cannotUpdate
  | .git => do
    let args : List Text := ["pull", "--ff-only"]
    match ← r.capture w (some r.root) args with
    | .error cause => throw (.unfinished ("update " ++ r.root.toText) cause)
    | .ok result =>
      if result.code ≠ 0 then r.refuse w "update" args result
      else r.debug ("Updated " ++ r.root.toText)

end Repository

end Annals

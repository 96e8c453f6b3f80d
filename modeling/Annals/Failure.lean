import Annals.Config.Sections
import Annals.Date.Expression
import Annals.Files.Tree
import Annals.History.Annotation
import Annals.Process.Basic
import Annals.Version.Basic

/-!
# Failures

Every way in which an operation of the library fails is one constructor of `Failure`, with the data
that its message needs; `Failure.message` holds all wording. Failures that a user of the program is
meant to see are reports: they have a kind, an exit code, and for a failed tool its error output.
-/

namespace Annals

/-- The kinds of failures that are reported to the user of the program. -/
inductive ReportKind where
  | general
  | retrieval
  | malformedOutput
  /-- A tool cannot do what it is asked for. -/
  | unsupported
  | config
  | userInput
  /-- The tool is missing or does not work. -/
  | notReady
  deriving DecidableEq, Repr

namespace ReportKind

/-- The exit code of the program after a failure of a kind. -/
def exitCode : ReportKind → Int
  | general | retrieval | malformedOutput | config => 1
  | notReady => 2
  | unsupported => 3
  | userInput => 5

/-- The wording of a failure of a kind that says nothing more, where there is one. -/
def defaultMessage? : ReportKind → Option Text
  | general | retrieval | malformedOutput | notReady => none
  | unsupported => some "Not supported by this backend"
  | config => some "Configuration error"
  | userInput => some "Invalid arguments"

def parent? : ReportKind → Option ReportKind
  | general => none
  | malformedOutput => some retrieval
  | retrieval | unsupported | config | userInput | notReady => some general

/-- The kind and all more general ones, the most special first. -/
def lineage : ReportKind → List ReportKind
  | general => [general]
  | malformedOutput => [malformedOutput, retrieval, general]
  | k => [k, general]

/-- Whether failures of a kind carry the error output of a tool. -/
def hasStderr (k : ReportKind) : Bool := k.lineage.contains retrieval

end ReportKind

/-- A failure as it is reported to the user. -/
structure Report where
  kind : ReportKind
  message : Text
  exitCode : Int := kind.exitCode
  /-- The error output of the tool that failed, unchanged. -/
  stderr : Text := []
  deriving DecidableEq, Repr

inductive FailureKind where
  | reported (kind : ReportKind)
  /-- A value has the right shape but cannot be used. -/
  | value
  | overflow
  | index
  | key
  | type
  /-- A process did not come to an end. -/
  | process
  | decoding
  | system
  | surroundings
  | expression
  deriving DecidableEq, Repr

/-- What is wrong with the output of a tool. -/
inductive Malformation where
  /-- A line of an annotation lacks the author or the revision. -/
  | annotationLine (number : Nat) (file line : Text)
  /-- A line stands where the first line of a block is expected. -/
  | blameHeader (file line : Text)
  /-- A block has another number than its place; the number is kept as it is written. -/
  | blameOrder (file number : Text)
  | blameTruncated (file : Text)
  deriving DecidableEq, Repr

inductive Failure where
  /-- The tool did not come to an end. -/
  | unfinished (task : Text) (cause : ProcessFailure)
  /-- The tool ended with a status that tells of an error. -/
  | refused (task : Text) (argv : List Text) (code : Int) (stderr : Text)
  | malformed (what : Malformation)
  | cannotUpdate
  | badConfig (path : Path) (fault : SectionFault)
  | undecodable (fault : Utf8.Fault)
  | outsideRepositories (path : Path)
  /-- A directory is not the root of a repository. -/
  | notRoot (path : Path)
  /-- The tool of a kind is missing or does not work. -/
  | unavailable (kind : Text)
  /-- The content of a file at a revision, or at the latest one, is not to be had. -/
  | noContent (path : Path) (revision? : Option Text)
  /-- A file is not tracked, so that it has no history. -/
  | noHistory (path : Path)
  /-- A file is not tracked, so that it cannot be annotated. -/
  | notAnnotatable (path : Path)
  | badVersion (text : Text)
  | tooManyDigits (digits : Nat)
  | badDate (text : Text)
  /-- A date lies outside the years 1 to 9999. -/
  | dateOutOfRange
  | repeatedItem (repetition : Repetition)
  /-- An annotation has no line of a number. -/
  | noSuchLine (fault : LineFault)
  | badPath (fault : PathFault)
  /-- The home directory that a path begins with is not known. -/
  | noHome
  | unknownKind (kind : Text)
  /-- Dates on clocks of known and unknown offset cannot be ordered. -/
  | mixedClocks
  /-- A process did not come to an end, seen by its direct caller. -/
  | process (cause : ProcessFailure)
  /-- A command cannot be run as it is, which is for nobody to answer for. -/
  | badCommand (fault : CommandFault)
  deriving DecidableEq, Repr

def Malformation.message : Malformation → Text
  | annotationLine number file line =>
    "Malformed annotation line " ++ Text.ofNat number ++ " for " ++ file ++ ": " ++ line.quoted
  | blameHeader file line => "Malformed blame header for " ++ file ++ ": " ++ line.quoted
  | blameOrder file number => "Out of order blame line " ++ number ++ " for " ++ file
  | blameTruncated file => "Truncated blame output for " ++ file

namespace Failure

def ofDate : DateError → Failure
  | .unparseable t => badDate t
  | .outOfRange => dateOutOfRange

def ofVersion : VersionError → Failure
  | .notDotted t => badVersion t
  | .tooLong n => tooManyDigits n

/-- The failure of a tool that ended with a status that tells of an error. -/
def ofStatus (task : Text) (argv : List Text) (r : Result) : Failure :=
  refused task argv r.code r.stderr

def kind : Failure → FailureKind
  | unfinished .. | refused .. => .reported .retrieval
  | malformed .. => .reported .malformedOutput
  | cannotUpdate => .reported .unsupported
  | badConfig .. => .reported .config
  | outsideRepositories .. | notRoot .. | noHistory .. | notAnnotatable .. => .reported .userInput
  | unavailable .. => .reported .notReady
  | noContent .. => .reported .general
  | badVersion .. | tooManyDigits .. | badDate .. => .value
  | dateOutOfRange => .overflow
  | repeatedItem .. => .expression
  | noSuchLine .. => .index
  | badPath (.tooLong ..) => .system
  | badPath .holdsNul => .value
  | noHome => .surroundings
  | unknownKind .. => .key
  | mixedClocks => .type
  | process .. => .process
  | badCommand .empty => .index
  | badCommand .holdsNul => .value
  | badCommand (.overlong ..) => .overflow
  | undecodable .. => .decoding

def message : Failure → Text
  | unfinished task cause => "Failed to " ++ task ++ ": " ++ cause.message
  | refused task argv code stderr =>
    "Failed to " ++ task ++ ": " ++ commandLine argv ++ " exited with " ++ Text.ofInt code ++
      (if stderr.trim.isEmpty then [] else '\n' :: stderr.trim)
  | malformed what => what.message
  | cannotUpdate => "BitKeeper repositories cannot be updated"
  | badConfig path fault =>
    "Invalid config file " ++ path.toText ++ ": " ++ fault.message path.toText
  | undecodable fault => fault.message
  | outsideRepositories path => "Not inside a known repository: " ++ path.toText
  | notRoot path => "Not a repository root: " ++ path.toText
  | unavailable k => k ++ " client is not available"
  | noContent path revision? =>
    let revision : Text :=
      match revision? with
      | some (c :: cs) => c :: cs
      | _ => "latest"
    "could not get " ++ path.toText ++ " at " ++ revision
  | noHistory path => "No history for " ++ path.toText
  | notAnnotatable path => "No annotation for " ++ path.toText
  | badVersion t => "Invalid version number: " ++ t.quoted
  | tooManyDigits n =>
    "Exceeds the limit (" ++ Text.ofNat maxDigits ++
      " digits) for integer string conversion: value has " ++ Text.ofNat n ++
      " digits; use sys.set_int_max_str_digits() to increase the limit"
  | badDate t => "Unparseable date: " ++ t.quoted
  | dateOutOfRange => "date value out of range"
  | repeatedItem r => r.message
  | noSuchLine fault => fault.message
  | badPath fault => fault.message
  | noHome => "Could not determine home directory."
  | unknownKind k => k.quoted
  | mixedClocks => "can't compare offset-naive and offset-aware datetimes"
  | process cause => cause.message
  | badCommand fault => fault.message

/-- The error output of the tool that failed, unchanged. -/
def stderr : Failure → Text
  | refused _ _ _ stderr => stderr
  | _ => []

/-- The failure as it is reported to the user, if it is meant for them. -/
def report? (f : Failure) : Option Report :=
  match f.kind with
  | .reported kind => some { kind, message := f.message, stderr := f.stderr }
  | _ => none

end Failure

end Annals

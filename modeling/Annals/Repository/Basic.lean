import Annals.Config.Settings
import Annals.History.Tag
import Annals.Process.Execute
import Annals.Version.Gate

/-!
# Repositories and sessions

A repository is a directory with the tool that manages it. A session is what is known and what has
happened while working with it: the executable, the state of the tool and the list of tags, each found
out once; the processes that were run; and the notes.

Operations are actions on a session in a surrounding world. The world answers a command from the
processes run before it, so that it may answer differently each time.
-/

namespace Annals

inductive Backend where
  | bitkeeper
  | git
  deriving DecidableEq, Repr

structure Capabilities where
  directoryHistory : Bool
  /-- Whether the list of tags is made for the whole repository. -/
  fileBasedTags : Bool
  branches : Bool
  deriving DecidableEq, Repr

namespace Backend

/-- The name of a tool in settings and reports. -/
def kind : Backend → Text
  | bitkeeper => "bitkeeper"
  | git => "git"

def title : Backend → Text
  | bitkeeper => "BitKeeper"
  | git => "Git"

def usualCommand : Backend → Text
  | bitkeeper => "bk"
  | git => "git"

/-- The part of the library that works with a tool. -/
def source : Backend → Source
  | bitkeeper => .bitkeeper
  | git => .git

def capabilities : Backend → Capabilities
  | bitkeeper => ⟨false, true, false⟩
  | git => ⟨true, true, true⟩

def banner : Backend → Banner
  | bitkeeper => .afterDash
  | git => .afterName

/-- The version from which on a tool takes the new format for tags. -/
def newTagFormat : Backend → Version
  | bitkeeper => .ofParts [7, 3]
  | git => .ofParts [2, 2]

end Backend

/-- A repository with its tool and the settings to use. -/
structure Repository where
  backend : Backend
  root : Path
  config : Config := {}
  deriving DecidableEq, Repr

/-- What surrounds the program. -/
structure World where
  environment : Environment := []
  files : Files := {}
  homes : Homes := {}
  /-- What becomes of a command, given the runs before it. -/
  outcome : List Run → List Text → Outcome

/-- What is known and what has happened. -/
structure Session where
  command : Once Text := {}
  /-- What is known of the tool. -/
  status : Once ToolStatus := {}
  tags : Once (List Tag) := {}
  runs : List Run := []
  notes : List Note := []

/-- An action on a session, which may fail. What has happened before a failure stays. -/
abbrev Work (α : Type) := ExceptT Failure (StateM Session) α

namespace Work

def note (notes : List Note) : Work Unit :=
  modify fun s => { s with notes := s.notes ++ notes }

/-- Takes what was found by looking at paths. -/
def lookUp {α : Type} : Except PathFault α → Work α
  | .ok a => return a
  | .error fault => throw (.badPath fault)

end Work

namespace Repository

/-- Makes a note in the name of the tool. -/
def debug (r : Repository) (text : Text) : Work Unit := Work.note [.debug r.backend.source text]

/-- Makes a note about a failure in the name of the tool. -/
def complain (r : Repository) (text : Text) : Work Unit := Work.note [.error r.backend.source text]

/-- The executable of the tool, found out once. -/
def command (r : Repository) (w : World) : Work Text := do
  let s ← get
  let (command, cell) ←
    s.command.get
      (pure (r.config.commandFor w.environment r.backend.kind r.backend.usualCommand) : Work Text)
  modify fun s => { s with command := cell }
  return command

/-- The command of the tool with arguments, run in a directory. -/
def commandWith (r : Repository) (w : World) (dir? : Option Path) (args : List Text) :
    Work Command := do
  let tool ← r.command w
  return { argv := tool :: args, dir := dir?, timeout := r.config.timeout.map .ofInt }

/-- Runs the tool and keeps its output. Fails if the command is at fault itself. -/
def capture (r : Repository) (w : World) (dir? : Option Path) (args : List Text) :
    Work (Except ProcessFailure Result) := do
  let c ← r.commandWith w dir? args
  let s ← get
  let out := c.capture (w.outcome s.runs c.argv)
  set { s with runs := s.runs ++ [out.run], notes := s.notes ++ out.notes }
  match out.result with
  | .error fault => throw (.badCommand fault)
  | .ok result => return result

/-- Runs the tool and hands the lines of its output to a handler. Gives the state of the handler and
what became of the process; fails if the handler does, or if the command is at fault itself. -/
def stream {σ : Type} (r : Repository) (w : World) (dir? : Option Path) (args : List Text)
    (feed : σ → Text → Fed σ Failure) (init : σ) : Work (σ × Except ProcessFailure Result) := do
  let c ← r.commandWith w dir? args
  let s ← get
  let out := c.stream (w.outcome s.runs c.argv) feed init
  set { s with runs := s.runs ++ [out.run], notes := s.notes ++ out.notes }
  match out.result with
  | .error fault => throw (.badCommand fault)
  | .ok (.error f) => throw f
  | .ok (.ok result) => return (out.state, result)

/-- The failure of the tool that ended with a status that tells of an error. -/
def refuse {α : Type} (r : Repository) (w : World) (task : Text) (args : List Text)
    (result : Result) : Work α := do
  let tool ← r.command w
  throw (.ofStatus task (tool :: args) result)

/-- The text that the tool prints when asked for its version; none if it fails. -/
def versionOutput (r : Repository) (w : World) : Work (Option Text) := do
  match ← r.capture w none ["--version"] with
  | .error cause =>
    r.debug (r.backend.title ++ " not available: " ++ cause.message)
    return none
  | .ok result =>
    if result.code = 0 then return some result.outputText
    else
      r.debug (r.backend.usualCommand ++ " --version exited with " ++ Text.ofInt result.code)
      return none

def probe (r : Repository) (w : World) : Work ToolStatus := do
  let output? ← r.versionOutput w
  Work.note (ToolStatus.remarks r.backend.banner output?)
  return ToolStatus.ofOutput r.backend.banner output?

/-- The state of the tool, found out once. -/
def status (r : Repository) (w : World) : Work ToolStatus := do
  let s ← get
  let (status, cell) ← s.status.get (r.probe w)
  modify fun s => { s with status := cell }
  return status

def isAvailable (r : Repository) (w : World) : Work Bool := return (← r.status w).working

/-- The version of the tool; the oldest if it is not known. -/
def version (r : Repository) (w : World) : Work Version := return (← r.status w).version

end Repository

end Annals

import Annals.Text.Basic

/-!
# Notes

What the library remarks on while it works: processes it runs, records it drops, operations that
failed without stopping it. A note says which part of the library made it and how grave it is.
-/

namespace Annals

inductive Level where
  | debug
  | warning
  | error
  deriving DecidableEq, Repr

/-- The part of the library that makes a note. -/
inductive Source where
  | config
  | processes
  | versions
  | bitkeeper
  | bitkeeperRecords
  | git
  | gitRecords
  | registry
  | commandLine
  deriving DecidableEq, Repr

structure Note where
  source : Source
  level : Level
  text : Text
  deriving DecidableEq, Repr

def Level.name : Level → Text
  | debug => "DEBUG"
  | warning => "WARNING"
  | error => "ERROR"

/-- The name that a part of the library signs its notes with. -/
def Source.name : Source → Text
  | config => "repohist.config"
  | processes => "repohist.probes.tools"
  | versions => "repohist.scm.version"
  | bitkeeper => "repohist.scm.bitkeeper"
  | bitkeeperRecords => "repohist.scm.bitkeeper_parsers"
  | git => "repohist.scm.git"
  | gitRecords => "repohist.scm.git_parsers"
  | registry => "repohist.scm.registry"
  | commandLine => "repohist.cli"

namespace Note

/-- A note that is of interest only when tracing. -/
def debug (source : Source) (text : Text) : Note := ⟨source, .debug, text⟩

/-- A note about something that was dropped or replaced. -/
def warning (source : Source) (text : Text) : Note := ⟨source, .warning, text⟩

def error (source : Source) (text : Text) : Note := ⟨source, .error, text⟩

/-- Whether a note is shown when not tracing. -/
def isGrave (n : Note) : Bool := n.level ≠ .debug

def brief (n : Note) : Text := n.level.name ++ ": " ++ n.text

def full (n : Note) : Text := n.source.name ++ ": " ++ n.brief

end Note

end Annals

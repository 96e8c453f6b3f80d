import Annals.Files.Path
import Annals.Note
import Annals.Text.Quoted
import Annals.Text.Utf8

/-!
# Processes

A command is started in a directory with a time limit and either captured, so that its whole output
is kept, or streamed, so that its output is handed over line by line. What becomes of it is an
`Outcome`: it is rejected, it cannot be started, it exits, or it would go on after its output until it is
stopped. A command that is rejected is at fault itself (`CommandFault`); whatever else keeps it from an
exit is the failure of a process (`ProcessFailure`).

Which of these it is lies with the system, and is given to all that is done here from outside. File names
and arguments are texts, so that they have no bytes that are no UTF-8, and how much time passes is not
told: a process comes to its exit before its time limit or hangs.
-/

namespace Annals

/-- Why the system does not start a command that was tried. -/
inductive StartFault where
  | missing
  | denied
  /-- Any other reason, in the system's words: a directory that is none, too many arguments. -/
  | other (words : Text)
  deriving DecidableEq, Repr

/-- Why a command cannot be run as it is. -/
inductive CommandFault where
  /-- It does not name a tool. -/
  | empty
  /-- A word of it, or its directory, holds a NUL. -/
  | holdsNul
  /-- Its time limit is longer than the system waits for, in the system's words. Then the process is
  started, and stopped again at once. -/
  | overlong (words : Text)
  deriving DecidableEq, Repr

structure Exit where
  code : Int := 0
  stdout : Bytes := []
  stderr : Bytes := []
  deriving DecidableEq, Repr

inductive Outcome where
  | rejected (fault : CommandFault)
  | unstartable (fault : StartFault)
  | exits (exit : Exit)
  /-- It ends only when it is left alone without a time limit. -/
  | hangs (exit : Exit)
  deriving DecidableEq, Repr

/-- A time limit in seconds, and how it is written. -/
structure TimeLimit where
  /-- The number of seconds, unless there is no bound to it. -/
  seconds? : Option Rat
  text : Text
  deriving DecidableEq, Repr

namespace TimeLimit

/-- A whole number of seconds. -/
def ofInt (n : Int) : TimeLimit := ⟨some n, Text.ofInt n⟩

/-- A limit of 0 seconds, in whichever way it is written. -/
def isZero (limit : TimeLimit) : Bool := limit.seconds? = some 0

end TimeLimit

/-- Why a command does not come to an end. -/
inductive ProcessFailure where
  | notStarted (tool : Text) (fault : StartFault)
  | timedOut (limit : TimeLimit) (argv : List Text)
  deriving DecidableEq, Repr

/-- The system's wording for a command that cannot be started. -/
def StartFault.message (tool : Text) : StartFault → Text
  | missing => "[Errno 2] No such file or directory: " ++ tool.quoted
  | denied => "[Errno 13] Permission denied: " ++ tool.quoted
  | other words => words

def CommandFault.message : CommandFault → Text
  | empty => "list index out of range"
  | holdsNul => "embedded null byte"
  | overlong words => words

/-- The words of a command line with blanks between them. -/
def commandLine (argv : List Text) : Text := Text.join " " argv

def ProcessFailure.message : ProcessFailure → Text
  | notStarted tool fault => "Failed to run " ++ tool ++ ": " ++ fault.message tool
  | timedOut limit argv =>
    "Command timed out after " ++ limit.text ++ "s: " ++ commandLine argv

structure Command where
  argv : List Text
  /-- The directory to run it in, if not the current one. -/
  dir : Option Path := none
  timeout : Option TimeLimit := none
  deriving DecidableEq, Repr

/-- How the output of a process is taken. -/
inductive Mode where
  | captured
  | streamed
  deriving DecidableEq, Repr

/-- A command that was started, or that was tried to be started. -/
structure Run where
  command : Command
  mode : Mode
  /-- Whether the time limit was handed on: always when captured, and when streamed if a timer
  watched the process. -/
  timed : Bool
  /-- Whether a process was stopped whose output was streamed. -/
  killed : Bool := false
  deriving DecidableEq, Repr

structure Result where
  code : Int
  /-- The captured output; nothing if it was streamed. -/
  stdout : Bytes := []
  stderr : Text := []
  deriving DecidableEq, Repr

def Result.outputText (r : Result) : Text := Utf8.decode r.stdout

/-- The note about a command that is about to be run. -/
def Command.startNote (c : Command) : Note :=
  .debug .processes ("Running: " ++ commandLine c.argv)

def Result.endNote (r : Result) : Note := .debug .processes ("Exit code: " ++ Text.ofInt r.code)

end Annals

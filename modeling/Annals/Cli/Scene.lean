import Annals.Cli.Program
import Annals.Process.Script

/-!
# Scenes

A scene describes what surrounds an invocation of the program: environment variables, a tree of files, the
home directories of accounts and what becomes of commands. It is written line by line, with tabs between
the fields of a line; in a field a newline, a tab and a backslash are written behind a backslash.

    dir      path
    file     path  content
    link     path  target
    current  path
    env      name  value
    home     account  path
    runs     argument  code  output  errors
    hangs    argument  code  output  errors
    missing  argument
    denied   argument
    nul      argument
    overlong argument  words

The account that the program runs for is written without a name. Commands are named by their first
argument; several lines with one argument are its outcomes in turn.
-/

namespace Annals.Cli

/-- What surrounds an invocation. -/
structure Scene where
  environment : Environment := []
  files : Files := {}
  homes : Homes := {}
  script : Script := []

namespace Scene

def unescape : Text → Text
  | '\\' :: 'n' :: rest => '\n' :: unescape rest
  | '\\' :: 't' :: rest => '\t' :: unescape rest
  | '\\' :: '\\' :: rest => '\\' :: unescape rest
  | c :: rest => c :: unescape rest
  | [] => []

/-- Adds an outcome of the commands with an argument. -/
def addOutcome (s : Scene) (argument : Text) (o : Outcome) : Scene :=
  { s with script := s.script.put argument ((s.script.get? argument).getD [] ++ [o]) }

def place (s : Scene) (path : Text) (item : Item) : Scene :=
  { s with files := s.files.place (s.files.absolute (Path.ofText path)) item }

/-- What a process leaves behind, from its code and its outputs. -/
def exit? (code stdout stderr : Text) : Option Exit :=
  (Text.readInt? code).map fun n => ⟨n, Utf8.encode stdout, Utf8.encode stderr⟩

/-- Adds the home directory of an account. -/
def addHome (s : Scene) (account home : Text) : Scene :=
  let homes : Homes :=
    if account.isEmpty then { s.homes with own? := some home }
    else { s.homes with accounts := s.homes.accounts.put account home }
  { s with homes }

/-- Adds what a line says, given its fields. -/
def add? (s : Scene) (fields : List Text) : Option Scene :=
  match fields with
  | [word] => if word.isEmpty then some s else none
  | [word, a] =>
    if word = "dir".toList then some (s.place a (.dir .nil))
    else if word = "current".toList then
      some { s with files.current := s.files.absolute (Path.ofText a) }
    else if word = "missing".toList then some (s.addOutcome a (.unstartable .missing))
    else if word = "denied".toList then some (s.addOutcome a (.unstartable .denied))
    else if word = "nul".toList then some (s.addOutcome a (.rejected .holdsNul))
    else none
  | [word, a, b] =>
    if word = "file".toList then some (s.place a (.file (Utf8.encode b)))
    else if word = "link".toList then some (s.place a (.link b))
    else if word = "env".toList then some { s with environment := s.environment.put a b }
    else if word = "home".toList then some (s.addHome a b)
    else if word = "overlong".toList then some (s.addOutcome a (.rejected (.overlong b)))
    else none
  | [word, a, code, out, err] =>
    if word = "runs".toList then (exit? code out err).map fun e => s.addOutcome a (.exits e)
    else if word = "hangs".toList then (exit? code out err).map fun e => s.addOutcome a (.hangs e)
    else none
  | _ => none

/-- Reads lines; gives the first line that says nothing if there is one. -/
def read (s : Scene) : List Text → Except Text Scene
  | [] => .ok s
  | line :: lines =>
    match s.add? ((Text.fields '\t' line).map unescape) with
    | some s => read s lines
    | none => .error line

def world (s : Scene) : World :=
  { environment := s.environment, files := s.files, homes := s.homes, outcome := s.script.outcome }

end Scene

end Annals.Cli

import Annals.Cli.Command
import Annals.Discovery.Walk
import Annals.Render.Plain
import Annals.Render.Report
import Annals.Repository.Records
import Annals.Text.ControlSequence

/-!
# The program

Carrying out a request gives what is written to standard output, or a failure; what happened meanwhile
is in the session. A failure that is meant for the user becomes a line of standard error and an exit
code, any other one escapes. Notes come before it: warnings and errors, and all of them when asked for.
Texts are shown without control sequences; notes and the content of files are left as they are.
-/

namespace Annals.Cli

/-- What an invocation of the program leaves behind. -/
structure Answer where
  exitCode : Int := 0
  stdout : Bytes := []
  stderr : Text := []
  /-- The failure that nothing in the program answers for. -/
  escaped? : Option Failure := none
  runs : List Run := []

def usageExitCode : Int := 2

def notesText (notes : List Note) : Text := notes.flatMap fun n => n.full ++ ['\n']

/-- What is shown of a text on a line of its own. -/
def shownLine (t : Text) : Text := Text.dropSequences (t ++ ['\n'])

/-- The bytes that are shown of a text on a line of its own. -/
def line (t : Text) : Bytes := Utf8.encode (shownLine t)

def optionLine (o : OptionSpec) : Text := "  " ++ Text.join ", " o.names

/-- The usage of a command with its options. -/
def helpText (spec : Spec) : Text :=
  Text.unlines
    (("Usage: " ++ spec.path ++ " " ++ spec.usage) :: [] :: ("Options:" : Text) ::
      spec.options.map optionLine)

/-- The name of the program and its version. -/
def versionText : Text := programName ++ ", version " ++ programVersion

def failureAnswer (notes : List Note) (runs : List Run) (f : Failure) : Answer :=
  match f.report? with
  | some report =>
    { exitCode := report.exitCode
      stderr := notesText notes ++ shownLine ("Error: " ++ report.message)
      runs }
  | none => { exitCode := 1, stderr := notesText notes, escaped? := some f, runs }

/-- What is left behind by an invocation that does not come to a request. -/
def Ending.answer (notes : List Note) : Ending → Answer
  | .refused e => { exitCode := usageExitCode, stderr := notesText notes ++ shownLine e.text }
  | .help spec => { stdout := line (helpText spec), stderr := notesText notes }
  | .version => { stdout := line versionText, stderr := notesText notes }
  | .failed f => failureAnswer notes [] f

/-- The repository that holds a path. Its tool has to work. -/
def holding (w : World) (config : Config) (path : Path) : Work Repository := do
  match ← Work.lookUp (Registry.builtin.findRepository w.files config path) with
  | none => throw (.outsideRepositories path)
  | some found =>
    Work.note [found.note, .debug .commandLine
      ("Using " ++ found.kind ++ " repository at " ++ found.repository.root.toText)]
    if ← found.repository.isAvailable w then return found.repository
    else throw (.unavailable found.kind)

/-- A repository that was found as a JSON object. -/
def foundJson (found : Found) : Json :=
  .ordered [("kind", .word found.kind), ("root", .word found.repository.root.toText)]

/-- A repository that was found as a line. -/
def foundLine (found : Found) : Text :=
  Text.padRight 10 found.kind ++ " " ++ found.repository.root.toText

def discoveryReport (w : World) (config : Config) (path : Path) (json : Bool) : Work Text := do
  let discovery := Registry.builtin.discover w.files config path
  Work.note (discovery.notes path)
  let found ← Work.lookUp discovery.result
  if json then return Json.render (.list (found.map foundJson))
  else if found.isEmpty then return "No repositories found"
  else return Text.unlines (found.map foundLine)

/-- Something that is told about a repository, if it is known. -/
inductive Detail where
  | unknown
  | flag (b : Bool)
  | text (t : Text)

namespace Detail

def text? : Option Text → Detail
  | none => unknown
  | some t => text t

def json : Detail → Json
  | unknown => .null
  | flag b => .bool b
  | text t => .word t

/-- A detail as it is shown to people. -/
def plain : Detail → Text
  | unknown => "-"
  | flag b => if b then "True" else "False"
  | text t => t

end Detail

def plainField (field : Text × Detail) : Text :=
  Text.padRight 19 (field.1 ++ ":") ++ field.2.plain

/-- What is known about a repository, by name. -/
def details (w : World) (root : Path) (found : Found) : Work (List (Text × Detail)) := do
  let r := found.repository
  let capabilities := r.backend.capabilities
  let available ← r.isAvailable w
  let version := (← r.version w).toText
  let branch ← if available then r.branch w (some root) else pure none
  let parent ← if available then r.parent w (some root) else pure none
  return [("kind", .text found.kind), ("root", .text root.toText), ("available", .flag available),
    ("version", if available then .text version else .unknown),
    ("directory_history", .flag capabilities.directoryHistory),
    ("file_based_tags", .flag capabilities.fileBasedTags), ("branch", .text? branch),
    ("parent", .text? parent)]

def infoReport (w : World) (config : Config) (root : Path) (json : Bool) : Work Text := do
  match ← Work.lookUp (Registry.builtin.repositoryFor w.files config root) with
  | none => throw (.notRoot root)
  | some found =>
    Work.note [found.note]
    let fields ← details w root found
    if json then return Json.render (.ordered (fields.map fun field => (field.1, field.2.json)))
    else return Text.unlines (fields.map plainField)

def historyReport (w : World) (config : Config) (file : Path) (since? : Option Text) (json : Bool) :
    Work Text := do
  let r ← holding w config file
  if ← r.isTracked w file then
    let h ← r.history w file since?
    return if json then (Json.ofHistory (h.mapTexts Text.raw) file.toText.raw).render else h.plain
  else throw (.noHistory file)

/-- The origin of each line of a file. -/
def annotationReport (w : World) (config : Config) (file : Path) (revision? : Option Text) (json : Bool) :
    Work Text := do
  let r ← holding w config file
  if ← r.isAnnotatable w file then
    let a ← r.annotate w file revision?
    return if json then (Json.ofAnnotated (a.mapTexts Text.raw)).render else a.plain
  else throw (.notAnnotatable file)

def tagReport (w : World) (config : Config) (root : Path) (json : Bool) : Work Text := do
  let r ← holding w config root
  r.rebuildTagList w (some root)
  let tags ← r.tagList w
  return if json then (Json.ofTags (tags.map (Tag.mapTexts Text.raw)) root.toText.raw).render
    else Tag.table tags

def fileContent (w : World) (config : Config) (file : Path) (revision? : Option Text) : Work Bytes := do
  let full := w.files.absolute file
  let r ← holding w config full.parent
  match ← r.content w full.parent full.name revision? with
  | some content => return content
  | none => throw (.noContent file revision?)

def updateReport (w : World) (config : Config) (root : Path) : Work Text := do
  let r ← holding w config root
  r.update w
  return "Updated: " ++ root.toText

/-- Carries out a request and gives what is written to standard output. -/
def Request.perform (w : World) (config : Config) : Request → Work Bytes
  | .discover path json => line <$> discoveryReport w config path json
  | .info root json => line <$> infoReport w config root json
  | .history file since? withTags json =>
    let config := if withTags then { config with tagsEnabled := true } else config
    line <$> historyReport w config file since? json
  | .annotate file revision? json => line <$> annotationReport w config file revision? json
  | .tags root json => line <$> tagReport w config root json
  | .cat file revision? => fileContent w config file revision?
  | .update root => line <$> updateReport w config root

/-- Carries out a request with settings that were read, after the notes made by then. -/
def Request.answer (w : World) (config : Config) (notes : List Note) (shown : Note → Bool)
    (q : Request) : Answer :=
  let (result, session) := (q.perform w config).run.run { notes }
  let notes := session.notes.filter shown
  match result with
  | .ok stdout => { stdout, stderr := notesText notes, runs := session.runs }
  | .error f => failureAnswer notes session.runs f

/-- Invokes the program with arguments. A word that is no command is refused before the settings are
read, and the arguments of the command are read after them. -/
def invoke (w : World) (args : List Text) : Answer :=
  let opening : Except Ending (Opening × Verb) := do
    let o ← Opening.read w.files args
    return (o, ← o.verb)
  match opening with
  | .error ending => ending.answer []
  | .ok (o, verb) =>
    match Config.load w.files w.environment w.homes o.configPath? with
    | .error f => failureAnswer [] [] f
    | .ok (config, notes) =>
      let shown (n : Note) : Bool := o.verbose || n.isGrave
      match verb.read w.files o.args with
      | .error ending => ending.answer (notes.filter shown)
      | .ok request => request.answer w config notes shown

end Annals.Cli

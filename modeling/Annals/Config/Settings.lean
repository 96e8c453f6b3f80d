import Annals.Config.Home
import Annals.Text.Stream

/-!
# Settings

The settings of the program: the executables of the tools, whether tags are shown, and the time limit of
a command. They come from environment variables and from a file of sections; a variable that is not
empty wins. In the file, options of the section that stands apart count under their names in upper case,
and the others behind the name of their section and a dot.
-/

namespace Annals

/-- The time limit of a command in seconds when none is set. -/
def defaultTimeout : Int := 600

structure Config where
  commands : Assoc Text Text := []
  tagsEnabled : Bool := false
  /-- The time limit of a command in seconds, if there is one. -/
  timeout : Option Int := some defaultTimeout
  path? : Option Path := none
  deriving DecidableEq, Repr

def readYes (t : Text) : Bool :=
  let t := Text.lower (Text.trim t)
  t == "1" || t == "true" || t == "yes" || t == "on"

/-- The variable that says whether tags are shown. -/
def tagsVariable : Text := "REPOHIST_TAGS"

/-- The option that says whether tags are shown. -/
def tagsOption : Text := "TAGS_ENABLED"

def timeoutVariable : Text := "REPOHIST_COMMAND_TIMEOUT"

def timeoutOption : Text := "COMMAND_TIMEOUT"

/-- The variable that names the file of settings. -/
def configVariable : Text := "REPOHIST_CONFIG"

/-- The file of settings when no other is named. -/
def usualConfigFile : Text := "~/.config/repohist/config"

/-- The variable that names the executable of a backend. -/
def commandVariable (kind : Text) : Text := "REPOHIST_" ++ Text.upper kind ++ "_CMD"

/-- The executable of a backend: the one named in the environment, the one set, or the usual one. -/
def Config.commandFor (c : Config) (env : Environment) (kind usual : Text) : Text :=
  match env.value? (commandVariable kind) with
  | some command => command
  | none => ((c.commands.get? kind).bind Text.nonEmpty?).getD usual

namespace Sections

/-- The options of a file under names that say where they stand. -/
def flatten (s : Sections) : Options :=
  let defaults : Options := s.defaults.foldl (fun m (name, value) => m.put name.upper value) []
  s.named.foldl
    (fun m (sectionName, options) =>
      (options.filter fun o => !s.defaults.has o.1).foldl
        (fun m (name, value) => m.put (sectionName ++ "." ++ name) value) m)
    defaults

end Sections

namespace Config

/-- The executables that options name: those behind the name of the section for commands. -/
def commandsIn (options : Options) : Assoc Text Text :=
  options.foldl
    (fun m (name, value) =>
      if Text.startsWith "commands." name.lower ∧ !value.isEmpty then
        match Text.cut '.' name with
        | some (_, kind) => m.put kind.lower value
        | none => m
      else m)
    []

/-- The time limit that a text asks for: 0 is none, and what is negative or no number gives the usual
limit and is noted. -/
def readTimeout (t : Text) : Option Int × List Note :=
  match Text.readInt? t with
  | none =>
    (some defaultTimeout,
      [.warning .config
        ("Invalid COMMAND_TIMEOUT value, using default: " ++ Text.ofInt defaultTimeout)])
  | some n =>
    if n < 0 then
      (some defaultTimeout,
        [.warning .config
          ("COMMAND_TIMEOUT must be >=0, using default: " ++ Text.ofInt defaultTimeout)])
    else (if n = 0 then none else some n, [])

/-- The first of two values that is not empty. -/
def firstValue (a b : Option Text) : Option Text :=
  match a.bind Text.nonEmpty? with
  | some a => some a
  | none => b.bind Text.nonEmpty?

/-- How a truth value is shown in notes. -/
def boolText (b : Bool) : Text := if b then "True" else "False"

/-- How an optional number is shown in notes. -/
def limitText : Option Int → Text
  | none => "None"
  | some n => Text.ofInt n

def commandText (command : Text × Text) : Text :=
  command.1.quoted ++ ": " ++ command.2.quoted

def commandsText (commands : Assoc Text Text) : Text :=
  "\x7b" ++ Text.join ", " (commands.map commandText) ++ "\x7d"

def notes (c : Config) (path : Path) : List Note :=
  [.debug .config ("Config file: " ++ path.toText),
    .debug .config ("Tags enabled: " ++ boolText c.tagsEnabled),
    .debug .config ("Command timeout: " ++ limitText c.timeout),
    .debug .config ("Command overrides: " ++ commandsText c.commands)]

/-- The settings that an environment and the options of a file make, with notes. -/
def ofOptions (env : Environment) (path : Path) (options : Options) : Config × List Note :=
  let tags := firstValue (env.lookup tagsVariable) (options.get? tagsOption)
  let limit := firstValue (env.lookup timeoutVariable) (options.get? timeoutOption)
  let (timeout, warnings) :=
    match limit with
    | none => (some defaultTimeout, [])
    | some t => readTimeout t
  let c : Config :=
    { commands := commandsIn options
      tagsEnabled := (tags.map readYes).getD false
      timeout, path? := some path }
  (c, warnings ++ c.notes path)

/-- The options of the file at a path. There are none if the path does not lead to a file. -/
def readOptions (fs : Files) (path : Path) : Except Failure Options := do
  match ← (fs.item? path).mapError .badPath with
  | some (.file content) =>
    let source := LineSource.ofBytes content
    match SectionReader.steps {} 1 source.lines with
    | .error fault => .error (.badConfig path fault)
    | .ok r =>
      match source.fault? with
      | some fault => .error (.undecodable fault)
      | none =>
        match r.finish with
        | .error fault => .error (.badConfig path fault)
        | .ok s => .ok s.flatten
  | _ => .ok []

/-- Where the settings are kept when the caller does not say. -/
def defaultPath (env : Environment) (homes : Homes) : Except Failure Path :=
  expandHome env homes (Path.ofText ((env.lookup configVariable).getD usualConfigFile))

/-- Reads the settings from a file, or from the usual place if none is given. -/
def load (fs : Files) (env : Environment) (homes : Homes) (path? : Option Path) :
    Except Failure (Config × List Note) := do
  let path ←
    match path? with
    | some path => pure path
    | none => defaultPath env homes
  return ofOptions env path (← readOptions fs path)

end Config

end Annals

import Annals.Cli.Arguments

/-!
# The commands

The commands of the program with their arguments. A request is a command with all it was given: reading
arguments makes one, and everything after that works with requests alone.
-/

namespace Annals.Cli

inductive Verb where
  | discover
  | info
  | history
  | annotate
  | tags
  | cat
  | update
  deriving DecidableEq, Repr

inductive Request where
  | discover (path : Path) (json : Bool)
  | info (root : Path) (json : Bool)
  /-- Show the history of a file, or the part of it after a revision. -/
  | history (file : Path) (since? : Option Text) (tags json : Bool)
  /-- Show the origin of each line of a file at a revision, or at the latest one. -/
  | annotate (file : Path) (revision? : Option Text) (json : Bool)
  | tags (root : Path) (json : Bool)
  /-- Print a file at a revision, or at the latest one. -/
  | cat (file : Path) (revision? : Option Text)
  | update (root : Path)
  deriving DecidableEq, Repr

def programName : Text := "repohist"

def programVersion : Text := "0.1.0"

def helpOption : OptionSpec := ⟨["--help"], false⟩

def versionOption : OptionSpec := ⟨["--version"], false⟩

def verboseOption : OptionSpec := ⟨["-v", "--verbose"], false⟩

def configOption : OptionSpec := ⟨["--config"], true⟩

def jsonOption : OptionSpec := ⟨["--json"], false⟩

/-- Names the revision that a history starts after. -/
def sinceOption : OptionSpec := ⟨["--since"], true⟩

def tagsOption : OptionSpec := ⟨["--tags"], false⟩

def revisionOption : OptionSpec := ⟨["-r", "--revision"], true⟩

/-- The program as a whole, which takes options and then a command. -/
def groupSpec : Spec where
  path := programName
  usage := "[OPTIONS] COMMAND [ARGS]..."
  options := [verboseOption, configOption, versionOption, helpOption]
  mixed := false

namespace Parsed

def has (p : Parsed) (o : OptionSpec) : Bool := Assoc.has o p.options

/-- The value of an option, if it was given. -/
def value? (p : Parsed) (o : OptionSpec) : Option Text := Assoc.get? o p.options

end Parsed

namespace Verb

def name : Verb → Text
  | discover => "discover"
  | info => "info"
  | history => "history"
  | annotate => "annotate"
  | tags => "tags"
  | cat => "cat"
  | update => "update"

def all : List Verb := [discover, info, history, annotate, tags, cat, update]

def ofName? (word : Text) : Option Verb := all.find? fun v => v.name = word

/-- The name of the path that a command takes. -/
def parameter : Verb → Text
  | discover => "PATH"
  | info | tags | update => "ROOT"
  | history | annotate | cat => "FILE"

def wanted : Verb → PathWanted
  | discover | info | tags | update => .existingDir
  | history | annotate => .existingFile
  | cat => .notDir

def options : Verb → List OptionSpec
  | discover | info | tags => [jsonOption, helpOption]
  | history => [sinceOption, tagsOption, jsonOption, helpOption]
  | annotate => [revisionOption, jsonOption, helpOption]
  | cat => [revisionOption, helpOption]
  | update => [helpOption]

def spec (v : Verb) : Spec where
  path := programName ++ " " ++ v.name
  usage := "[OPTIONS] " ++ v.parameter
  options := v.options

/-- The request that a command makes of its path and its options. -/
def request (v : Verb) (path : Path) (p : Parsed) : Request :=
  match v with
  | discover => .discover path (p.has jsonOption)
  | info => .info path (p.has jsonOption)
  | history => .history path (p.value? sinceOption) (p.has tagsOption) (p.has jsonOption)
  | annotate => .annotate path (p.value? revisionOption) (p.has jsonOption)
  | tags => .tags path (p.has jsonOption)
  | cat => .cat path (p.value? revisionOption)
  | update => .update path

end Verb

/-- How an invocation ends that does not come to a request. -/
inductive Ending where
  | refused (error : UsageError)
  | help (spec : Spec)
  | version
  /-- Reading the arguments fails, through no fault of theirs that the usage tells of. -/
  | failed (failure : Failure)
  deriving DecidableEq, Repr

namespace Spec

/-- Takes arguments apart, unless the usage is asked for. -/
def parse (spec : Spec) (args : List Text) : Except Ending Parsed :=
  match spec.read {} args with
  | .error fault => .error (.refused ⟨spec, fault⟩)
  | .ok p => if p.has helpOption then .error (.help spec) else .ok p

/-- Refuses arguments for a fault that was found, if one was. -/
def check {α : Type} (spec : Spec) : Except UsageFault α → Except Ending α
  | .error fault => .error (.refused ⟨spec, fault⟩)
  | .ok a => .ok a

/-- Checks what a path given for a parameter leads to. A path that is too long leads nowhere. -/
def checkPath (spec : Spec) (fs : Files) (parameter : Text) (wanted : PathWanted) (path : Text) :
    Except Ending Path :=
  match fs.lookUp path with
  | .ok item? => spec.check (checkItem parameter wanted path item?)
  | .error (.tooLong _) => spec.check (checkItem parameter wanted path none)
  | .error fault => .error (.failed (.badPath fault))

end Spec

/-- Reads the arguments of a command. The path is checked before arguments beyond it are refused. -/
def Verb.read (v : Verb) (fs : Files) (args : List Text) : Except Ending Request := do
  let p ← v.spec.parse args
  match p.arguments with
  | [] => v.spec.check (.error (.missingArgument v.parameter))
  | path :: more =>
    let path ← v.spec.checkPath fs v.parameter v.wanted path
    match more with
    | [] => return v.request path p
    | more => v.spec.check (.error (.extraArguments more))

/-- What stands before the arguments of a command: the options of the program and the command. -/
structure Opening where
  verbose : Bool
  configPath? : Option Path
  word : Text
  args : List Text
  deriving DecidableEq, Repr

/-- Checks the file of settings that was named, if one was. -/
def checkConfigPath (fs : Files) : Option Text → Except Ending (Option Path)
  | none => .ok none
  | some path => (groupSpec.checkPath fs "--config" .notDir path).map some

/-- Reads what stands before the arguments of a command. -/
def Opening.read (fs : Files) (args : List Text) : Except Ending Opening := do
  if args.isEmpty then .error (.help groupSpec)
  let p ← groupSpec.parse args
  if p.has versionOption then .error .version
  let configPath? ← checkConfigPath fs (p.value? configOption)
  match p.arguments with
  | [] => groupSpec.check (.error .noCommand)
  | word :: args => return { verbose := p.has verboseOption, configPath?, word, args }

/-- Whether a word looks like an option rather than a command: it begins with an ASCII character that is
neither a letter nor a digit. -/
def looksLikeOption : Text → Bool
  | [] => false
  | c :: _ => c.toNat < 0x80 && !c.isAlphanum

/-- The command of an opening. A word that looks like an option is answered with the usage. -/
def Opening.verb (o : Opening) : Except Ending Verb :=
  match Verb.ofName? o.word with
  | some v => .ok v
  | none =>
    if looksLikeOption o.word then .error (.help groupSpec)
    else groupSpec.check (.error (.noSuchCommand o.word))

end Annals.Cli

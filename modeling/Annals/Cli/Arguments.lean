import Annals.Failure
import Annals.Text.Closeness

/-!
# Command-line arguments

A command takes options, some with a value, and one path. Options stand anywhere before two dashes that
stand alone; a long option may have its value behind an equals sign, short options may be run together
and may be followed at once by a value. The group of all commands takes its own options before the name
of a command.
-/

namespace Annals.Cli

structure OptionSpec where
  /-- The names: two dashes and a word, or one dash and a letter. -/
  names : List Text
  takesValue : Bool := false
  deriving DecidableEq, Repr

inductive PathWanted where
  | existingDir
  | existingFile
  /-- Anything but a directory, or nothing. -/
  | notDir
  deriving DecidableEq, Repr

structure Spec where
  path : Text
  /-- What is written behind its options. -/
  usage : Text
  options : List OptionSpec
  /-- Whether options may stand behind other arguments. -/
  mixed : Bool := true
  deriving DecidableEq, Repr

inductive UsageFault where
  | noSuchOption (name : Text) (close : List Text)
  | needsValue (name : Text)
  | takesNoValue (name : Text)
  | noSuchCommand (name : Text)
  | noCommand
  | missingArgument (name : Text)
  | extraArguments (arguments : List Text)
  | doesNotExist (parameter : Text) (wanted : PathWanted) (path : Text)
  | isOther (parameter : Text) (wanted : PathWanted) (path : Text)
  deriving DecidableEq, Repr

structure UsageError where
  spec : Spec
  fault : UsageFault
  deriving DecidableEq, Repr

/-- What a path is called by what it has to lead to. -/
def PathWanted.noun : PathWanted → Text
  | existingDir => "Directory"
  | existingFile | notDir => "File"

/-- What a path leads to instead. -/
def PathWanted.other : PathWanted → Text
  | existingDir => "is a file."
  | existingFile | notDir => "is a directory."

namespace UsageFault

def suggestion : List Text → Text
  | [] => []
  | [name] => " Did you mean " ++ name ++ "?"
  | names => " (Possible options: " ++ Text.join ", " names ++ ")"

/-- The ending of a word that counts arguments. -/
def pluralEnding (n : Nat) : Text := if n = 1 then "" else "s"

def message : UsageFault → Text
  | noSuchOption name close => "No such option: " ++ name ++ suggestion close
  | needsValue name => "Option " ++ name.quoted ++ " requires an argument."
  | takesNoValue name => "Option " ++ name.quoted ++ " does not take a value."
  | noSuchCommand name => "No such command " ++ name.quoted ++ "."
  | noCommand => "Missing command."
  | missingArgument name => "Missing argument '" ++ name ++ "'."
  | extraArguments arguments =>
    "Got unexpected extra argument" ++ pluralEnding arguments.length ++ " (" ++
      Text.join " " arguments ++ ")"
  | doesNotExist parameter wanted path =>
    "Invalid value for '" ++ parameter ++ "': " ++ wanted.noun ++ " " ++ path.quoted ++
      " does not exist."
  | isOther parameter wanted path =>
    "Invalid value for '" ++ parameter ++ "': " ++ wanted.noun ++ " " ++ path.quoted ++ " " ++
      wanted.other

/-- Whether the wording is shown without the usage of the command. -/
def isBare : UsageFault → Bool
  | needsValue _ | takesNoValue _ => true
  | _ => false

end UsageFault

/-- How a command is used, and where there is more about it. -/
def Spec.usageText (spec : Spec) : Text :=
  "Usage: " ++ spec.path ++ " " ++ spec.usage ++ "\nTry '" ++ spec.path ++
    " --help' for help.\n\n"

def UsageError.text (e : UsageError) : Text :=
  let usage : Text := if e.fault.isBare then "" else e.spec.usageText
  usage ++ "Error: " ++ e.fault.message

structure Parsed where
  /-- The options that were given, with their values; the last one counts. -/
  options : Assoc OptionSpec Text := []
  arguments : List Text := []
  deriving DecidableEq, Repr

/-- What one argument says that starts with a dash: options, and possibly one more, by its name, whose
value is the next argument. -/
structure Dashed where
  given : List (OptionSpec × Text) := []
  open? : Option (OptionSpec × Text) := none

/-- Whether a name is that of a short option. -/
def isShort (name : Text) : Bool :=
  match name with
  | [_, c] => c ≠ '-'
  | _ => false

namespace Spec

def option? (spec : Spec) (name : Text) : Option OptionSpec :=
  spec.options.find? fun o => o.names.contains name

def longNames (spec : Spec) : List Text :=
  spec.options.flatMap fun o => o.names.filter (!isShort ·)

/-- Reads short options that are run together. -/
def readShort (spec : Spec) : Text → Except UsageFault Dashed
  | [] => .ok {}
  | c :: cs => do
    match spec.option? ['-', c] with
    | none => throw (.noSuchOption ['-', c] [])
    | some o =>
      if o.takesValue then
        return if cs.isEmpty then { open? := some (o, ['-', c]) } else { given := [(o, cs)] }
      else
        let more ← readShort spec cs
        return { more with given := (o, []) :: more.given }

/-- Reads an argument that starts with a dash. -/
def readDashed (spec : Spec) (arg : Text) : Except UsageFault Dashed :=
  let (name, value?) : Text × Option Text :=
    match Text.cut '=' arg with
    | some (name, value) => (name, some value)
    | none => (arg, none)
  let long? := if isShort name then none else spec.option? name
  match long?, value? with
  | some o, some value =>
    if o.takesValue then .ok { given := [(o, value)] } else .error (.takesNoValue name)
  | some o, none =>
    if o.takesValue then .ok { open? := some (o, name) } else .ok { given := [(o, [])] }
  | none, _ =>
    if Text.startsWith "--" arg then
      .error (.noSuchOption name (Text.closeWords name spec.longNames))
    else spec.readShort (arg.drop 1)

def read (spec : Spec) : Parsed → List Text → Except UsageFault Parsed
  | p, [] => .ok p
  | p, arg :: args =>
    if arg = ['-', '-'] then .ok { p with arguments := p.arguments ++ args }
    else if Text.startsWith ['-'] arg ∧ arg ≠ ['-'] then
      match spec.readDashed arg with
      | .error fault => .error fault
      | .ok d =>
        let p := { p with options := p.options.putAll d.given }
        match d.open?, args with
        | none, args => read spec p args
        | some (_, name), [] => .error (.needsValue name)
        | some (o, _), value :: args =>
          read spec { p with options := p.options.put o value } args
    else if spec.mixed then read spec { p with arguments := p.arguments ++ [arg] } args
    else .ok { p with arguments := p.arguments ++ arg :: args }

end Spec

/-- Checks what a path given for a parameter leads to. -/
def checkItem (parameter : Text) (wanted : PathWanted) (path : Text) (item? : Option Item) :
    Except UsageFault Path :=
  match item?, wanted with
  | none, .notDir => .ok (Path.ofText path)
  | none, wanted => .error (.doesNotExist parameter wanted path)
  | some (.dir _), .existingDir => .ok (Path.ofText path)
  | some (.dir _), wanted => .error (.isOther parameter wanted path)
  | some _, .existingDir => .error (.isOther parameter .existingDir path)
  | some _, _ => .ok (Path.ofText path)

end Annals.Cli

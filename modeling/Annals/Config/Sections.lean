import Annals.Assoc
import Annals.Text.Blank
import Annals.Text.Case
import Annals.Text.Quoted

/-!
# Files of sections and options

A file of sections holds headers in square brackets, options with a value after an equals sign or a
colon, and values that go on in deeper indented lines. Lines that begin with a hash sign or a semicolon
are comments. The section named DEFAULT stands apart from the others and may be opened repeatedly; any
other section may be opened once, and an option may be written once in a section. Option names count in
lower case.

The reader takes one line after another. A repeated section or option, and a line before the first
header, end the reading; lines that are neither header nor option are collected and refused at the end.
-/

namespace Annals

inductive SectionFault where
  | noHeader (number : Nat) (line : Text)
  | repeatedSection (number : Nat) (name : Text)
  /-- An option is written again in its section. -/
  | repeatedOption (number : Nat) (sectionName option : Text)
  | strayLines (lines : List (Nat × Text))
  deriving DecidableEq, Repr

/-- The number of a line inside brackets, at least two characters wide. -/
def bracketedLine (number : Nat) : Text := "[line " ++ Text.padLeft 2 (Text.ofNat number) ++ "]"

/-- The wording about a line that is neither header nor option, given with its number. -/
def strayText (stray : Nat × Text) : Text :=
  "\n\t" ++ bracketedLine stray.1 ++ ": " ++ stray.2.quoted

/-- The wording of a fault in a file at a path. -/
def SectionFault.message (path : Text) (fault : SectionFault) : Text :=
  let file : Text := "PosixPath(" ++ path.quoted ++ ")"
  match fault with
  | noHeader number line =>
    "File contains no section headers.\nfile: " ++ file ++ ", line: " ++ Text.ofNat number ++ "\n" ++
      line.quoted
  | repeatedSection number name =>
    "While reading from " ++ file ++ " " ++ bracketedLine number ++ ": section " ++ name.quoted ++
      " already exists"
  | repeatedOption number sectionName option =>
    "While reading from " ++ file ++ " " ++ bracketedLine number ++ ": option " ++ option.quoted ++
      " in section " ++ sectionName.quoted ++ " already exists"
  | strayLines lines =>
    "Source contains parsing errors: " ++ file ++ lines.flatMap strayText

/-- Options with their values, in the order in which they are written. -/
abbrev Options := Assoc Text Text

structure Sections where
  defaults : Options := []
  named : Assoc Text Options := []
  deriving DecidableEq, Repr

/-- What a line that is not blank says. -/
inductive SectionLine where
  | header (name : Text)
  | option (name value : Text)
  | other
  deriving DecidableEq, Repr

/-- The name of the section that stands apart. -/
def defaultSection : Text := "DEFAULT"

/-- The name between the first bracket, at the front, and the last closing one. -/
def headerName? : Text → Option Text
  | '[' :: cs =>
    match dropEndWhile (· ≠ ']') cs with
    | [] | [_] => none
    | c :: d :: ds => some (c :: d :: ds).dropLast
  | _ => none

/-- What a trimmed line says. The name of an option ends before the first equals sign or colon. -/
def SectionLine.ofText (t : Text) : SectionLine :=
  match headerName? t with
  | some name => header name
  | none =>
    let isDelimiter (c : Char) : Bool := c == '=' || c == ':'
    match t.dropWhile (!isDelimiter ·) with
    | [] => other
    | _ :: value =>
      option (Text.lower (Text.trimEnd (t.takeWhile (!isDelimiter ·)))) (Text.trim value)

/-- Where the reader stands: before the first header, or in a section. -/
inductive Place where
  | nowhere
  | defaults
  | named (name : Text)
  deriving DecidableEq, Repr

/-- The reader of a file of sections. The values are kept by lines. -/
structure SectionReader where
  defaults : Assoc Text (List Text) := []
  named : Assoc Text (Assoc Text (List Text)) := []
  place : Place := .nowhere
  /-- The option whose value may go on. -/
  option? : Option Text := none
  /-- The indentation of the last header or option. -/
  indent : Nat := 0
  strays : List (Nat × Text) := []
  deriving DecidableEq, Repr

namespace SectionReader

/-- The options of the section that the reader stands in. -/
def here (r : SectionReader) : Assoc Text (List Text) :=
  match r.place with
  | .nowhere => []
  | .defaults => r.defaults
  | .named name => (r.named.get? name).getD []

/-- Changes the options of the section that the reader stands in. -/
def changeHere (r : SectionReader)
    (f : Assoc Text (List Text) → Assoc Text (List Text)) : SectionReader :=
  match r.place with
  | .nowhere => r
  | .defaults => { r with defaults := f r.defaults }
  | .named name => { r with named := r.named.modify name f }

/-- The name of the section that the reader stands in. -/
def sectionName (r : SectionReader) : Text :=
  match r.place with
  | .nowhere => []
  | .defaults => defaultSection
  | .named name => name

/-- Adds a line to the value that may go on. -/
def extend (r : SectionReader) (line : Text) : SectionReader :=
  match r.option? with
  | none => r
  | some option => r.changeHere fun options => options.modify option (· ++ [line])

/-- Whether there is a value that may go on. An option without a name has none. -/
def mayExtend (r : SectionReader) : Bool :=
  match r.place, r.option? with
  | .nowhere, _ => false
  | _, some (_ :: _) => true
  | _, _ => false

def openSection (r : SectionReader) (number : Nat) (name : Text) :
    Except SectionFault SectionReader :=
  if name = defaultSection then .ok { r with place := .defaults, option? := none }
  else if r.named.has name then .error (.repeatedSection number name)
  else .ok { r with place := .named name, option? := none, named := r.named.put name [] }

/-- Writes an option. One without a name is written and its line refused at the end. -/
def writeOption (r : SectionReader) (number : Nat) (line name value : Text) :
    Except SectionFault SectionReader :=
  let r := if name.isEmpty then { r with strays := r.strays ++ [(number, line)] } else r
  if r.here.has name then .error (.repeatedOption number r.sectionName name)
  else .ok { r.changeHere (Assoc.put name [value]) with option? := some name }

/-- Takes a line, given with its number and its newline. -/
def step (r : SectionReader) (number : Nat) (line : Text) : Except SectionFault SectionReader :=
  match line.trim with
  | [] => .ok (if r.mayExtend then r.extend [] else r)
  | c :: cs =>
    let indent := (line.takeWhile isBlank).length
    if c = '#' ∨ c = ';' then .ok r
    else if r.mayExtend ∧ r.indent < indent then .ok (r.extend (c :: cs))
    else
      let r := { r with indent }
      match SectionLine.ofText (c :: cs), r.place with
      | .header name, _ => r.openSection number name
      | _, .nowhere => .error (.noHeader number line)
      | .option name value, _ => r.writeOption number line name value
      | .other, _ => .ok { r with strays := r.strays ++ [(number, line)] }

/-- Takes lines, numbered from the given number on. -/
def steps (r : SectionReader) : Nat → List Text → Except SectionFault SectionReader
  | _, [] => .ok r
  | number, line :: lines => do steps (← r.step number line) (number + 1) lines

/-- The lines of values joined, without blanks at the end. -/
def joinValues (options : Assoc Text (List Text)) : Options :=
  options.map fun (name, lines) => (name, Text.trimEnd (Text.join "\n" lines))

/-- The content of the file, unless there were lines to refuse. -/
def finish (r : SectionReader) : Except SectionFault Sections :=
  match r.strays with
  | [] => .ok ⟨joinValues r.defaults, r.named.map fun (name, options) => (name, joinValues options)⟩
  | strays => .error (.strayLines strays)

end SectionReader

/-- The content of a file of sections with the given lines. -/
def Sections.read (lines : List Text) : Except SectionFault Sections := do
  (← SectionReader.steps {} 1 lines).finish

end Annals

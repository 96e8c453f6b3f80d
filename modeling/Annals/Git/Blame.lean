import Annals.Failure
import Annals.Git.Log
import Annals.History.Annotation

/-!
# Git blame

For every line of a file there is a block: a first line with the hash of the revision and the number of
the line, lines about the revision, and the line of the file behind a tab. Any deviation spoils the whole
annotation.
-/

namespace Annals.Git

/-- Whether a character is a digit of a hash. -/
def isHashDigit (c : Char) : Bool := ('0' ≤ c && c ≤ '9') || ('a' ≤ c && c ≤ 'f')

/-- Whether a text is a hash in one of the two lengths. -/
def isHash (t : Text) : Bool := t.all isHashDigit && (t.length == 40 || t.length == 64)

/-- Whether a text is a run of digits. -/
def isNumber (t : Text) : Bool := !t.isEmpty && t.all isDigit

/-- The hash and the number of the line, as it is written, from the first line of a block. -/
def blockHeader? (line : Text) : Option (Text × Text) :=
  (oneLine? line).bind fun t =>
    match Text.fields ' ' t with
    | [hash, old, number] =>
      if isHash hash ∧ isNumber old ∧ isNumber number then some (hash, number) else none
    | [hash, old, number, count] =>
      if isHash hash ∧ isNumber old ∧ isNumber number ∧ isNumber count then some (hash, number)
      else none
    | _ => none

structure BlameReader where
  filename : Text
  lines : List AnnotatedLine := []
  /-- The revision of the block that the next lines belong to. -/
  revision? : Option Text := none
  author : Text := []
  deriving DecidableEq, Repr

namespace BlameReader

def openBlock (r : BlameReader) (line : Text) : Fed BlameReader Failure :=
  match blockHeader? line with
  | none => ⟨r, [], some (.malformed (.blameHeader r.filename line))⟩
  | some (hash, number) =>
    if maxDigits < number.length then ⟨r, [], some (.tooManyDigits number.length)⟩
    else if number.digitsValue = r.lines.length + 1 then
      ⟨{ r with revision? := some hash, author := [] }, [], none⟩
    else ⟨r, [], some (.malformed (.blameOrder r.filename number))⟩

def extendBlock (r : BlameReader) (revision line : Text) : BlameReader :=
  match line with
  | '\t' :: text =>
    { r with
      lines := r.lines ++ [⟨r.lines.length + 1, revision, r.author, text⟩]
      revision? := none }
  | _ =>
    match Text.after? "author " line with
    | some author => { r with author }
    | none => r

def feed (r : BlameReader) (line : Text) : Fed BlameReader Failure :=
  match r.revision? with
  | none => r.openBlock line
  | some revision => ⟨r.extendBlock revision line, [], none⟩

/-- The annotation read so far, unless a block has begun. -/
def annotation (r : BlameReader) : Except Failure Annotation :=
  match r.revision? with
  | none => .ok ⟨r.filename, r.lines⟩
  | some _ => .error (.malformed (.blameTruncated r.filename))

end BlameReader

end Annals.Git

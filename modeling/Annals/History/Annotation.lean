import Annals.Text.Basic

/-!
# Annotations

An annotation attributes each line of a file to a revision and an author. Lines are looked up by
their number from 1 on; 0 and negative numbers count back from the last line. A number that names no
line is refused, and one that is too large to count with is refused as that.
-/

namespace Annals

structure AnnotatedLine (τ : Type := Text) where
  number : Int
  revision : τ
  author : τ
  text : τ
  deriving DecidableEq, Repr

/-- The attribution of every line of a file. -/
structure Annotation (τ : Type := Text) where
  filename : τ
  lines : List (AnnotatedLine τ) := []
  deriving DecidableEq, Repr

/-- The line with another text for each of its texts. -/
def AnnotatedLine.mapTexts {τ σ : Type} (f : τ → σ) (l : AnnotatedLine τ) : AnnotatedLine σ :=
  { number := l.number, revision := f l.revision, author := f l.author, text := f l.text }

/-- The annotation with another text for each of its texts. -/
def Annotation.mapTexts {τ σ : Type} (f : τ → σ) (a : Annotation τ) : Annotation σ :=
  { filename := f a.filename, lines := a.lines.map (AnnotatedLine.mapTexts f) }

inductive LineFault where
  | outside
  /-- The number is too large to count lines. -/
  | noPosition
  deriving DecidableEq, Repr

def LineFault.message : LineFault → Text
  | outside => "tuple index out of range"
  | noPosition => "cannot fit 'int' into an index-sized integer"

namespace Annotation

/-- Whether a position fits into 64 bits with a sign. -/
def isPosition (k : Int) : Bool := -0x8000000000000000 ≤ k && k < 0x8000000000000000

/-- The line at a number: 1 is the first, 0 the last, -1 the one before it. -/
def line? (a : Annotation) (n : Int) : Option AnnotatedLine :=
  if 1 ≤ n then a.lines[(n - 1).toNat]?
  else if (1 - n).toNat ≤ a.lines.length then a.lines[a.lines.length - (1 - n).toNat]?
  else none

/-- The line at a number, or why there is none. -/
def line (a : Annotation) (n : Int) : Except LineFault AnnotatedLine :=
  if isPosition (n - 1) then
    match a.line? n with
    | some l => .ok l
    | none => .error .outside
  else .error .noPosition

/-- The revision that last changed the line at a number. -/
def revision (a : Annotation) (n : Int) : Except LineFault Text := return (← a.line n).revision

/-- The author who last changed the line at a number. -/
def author (a : Annotation) (n : Int) : Except LineFault Text := return (← a.line n).author

end Annotation

end Annals

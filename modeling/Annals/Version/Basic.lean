import Annals.Text.Blank
import Annals.Text.Digit

/-!
# Versions

A version is a sequence of numbers without zeros at its end, the first number apart. `Version.ofParts`
drops these zeros, `Version.parse` reads a dotted number, and versions are ordered as sequences, first
difference first.
-/

namespace Annals

/-- The parts without zeros at their end; the first part stays. -/
def dropTrailingZeros : List Int → List Int
  | [] => []
  | p :: ps => p :: dropEndWhile (· == 0) ps

/-- Dropping the zeros at the end twice is dropping them once. -/
theorem dropTrailingZeros_idem (ps : List Int) :
    dropTrailingZeros (dropTrailingZeros ps) = dropTrailingZeros ps := by
  cases ps with
  | nil => rfl
  | cons p ps => simp [dropTrailingZeros, dropEndWhile_idem]

structure Version where
  /-- The numbers between the dots. -/
  parts : List Int
  /-- Zeros at the end do not count, so there are none. -/
  reduced : dropTrailingZeros parts = parts

/-- Why a text is not read as a version. -/
inductive VersionError where
  | notDotted (text : Text)
  | tooLong (digits : Nat)
  deriving DecidableEq, Repr

namespace Version

def ofParts (ps : List Int) : Version := ⟨dropTrailingZeros ps, dropTrailingZeros_idem ps⟩

instance : DecidableEq Version := fun a b =>
  decidable_of_iff (a.parts = b.parts) ⟨fun h => by cases a; cases b; simp_all, fun h => h ▸ rfl⟩

instance : LT Version := ⟨fun a b => a.parts < b.parts⟩

instance : LE Version := ⟨fun a b => ¬ b.parts < a.parts⟩

instance (a b : Version) : Decidable (a < b) := inferInstanceAs (Decidable (a.parts < b.parts))

instance (a b : Version) : Decidable (a ≤ b) :=
  inferInstanceAs (Decidable (¬ b.parts < a.parts))

/-- The oldest version, which is assumed where none is known. -/
def oldest : Version := ofParts [0]

/-- Whether a text is one or more runs of digits with single dots between them. -/
def isDotted (t : Text) : Bool :=
  (Text.fields '.' t).all fun part => !part.isEmpty && part.all isDigit

def readParts : List Text → Except VersionError (List Int)
  | [] => .ok []
  | part :: parts => do
    if maxDigits < part.length then .error (.tooLong part.length)
    let rest ← readParts parts
    return (Text.digitsValue part : Int) :: rest

/-- The version that a text writes, blanks around it apart. -/
def parse (t : Text) : Except VersionError Version :=
  if isDotted t.trim then (readParts (Text.fields '.' t.trim)).map ofParts
  else .error (.notDotted t)

/-- The numbers of the version with dots between them. -/
def toText (v : Version) : Text := Text.join "." (v.parts.map Text.ofInt)

end Version

end Annals

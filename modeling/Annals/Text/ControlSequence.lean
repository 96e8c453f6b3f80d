import Annals.Text.Basic

/-!
# Control sequences

A control sequence tells a terminal to colour what follows or to move about: an escape character, an
opening bracket, parameters made of ASCII digits, semicolons and question marks, and one ASCII letter.
Text that is shown to people is shown without them. An escape character that does not begin a whole
sequence stays.

`dropSequences_eq_self` says that a text without escape characters is shown as it is.
-/

namespace Annals.Text

def sequenceStart : Char := '\x1b'

/-- Whether a character may stand among the parameters of a control sequence. -/
def isParameter (c : Char) : Bool := c == ';' || c == '?' || c.isDigit

/-- How many of the characters behind an escape character belong to a control sequence with it, if it
begins one. -/
def sequenceLength? : Text → Option Nat
  | '[' :: cs =>
    match cs.dropWhile isParameter with
    | c :: _ => if c.isAlpha then some ((cs.takeWhile isParameter).length + 2) else none
    | [] => none
  | _ => none

/-- The text without control sequences, after as many characters as the first number says. -/
def dropSequencesAfter : Nat → Text → Text
  | _, [] => []
  | n + 1, _ :: cs => dropSequencesAfter n cs
  | 0, c :: cs =>
    if c = sequenceStart then
      match sequenceLength? cs with
      | some n => dropSequencesAfter n cs
      | none => c :: dropSequencesAfter 0 cs
    else c :: dropSequencesAfter 0 cs

def dropSequences (t : Text) : Text := dropSequencesAfter 0 t

/-- A text without escape characters has no control sequences. -/
theorem dropSequences_eq_self {t : Text} (h : sequenceStart ∉ t) : dropSequences t = t := by
  unfold dropSequences
  induction t with
  | nil => rfl
  | cons c cs ih =>
    have hc : c ≠ sequenceStart := fun e => h (by simp [e])
    rw [dropSequencesAfter, if_neg hc, ih fun m => h (List.mem_cons_of_mem _ m)]

end Annals.Text

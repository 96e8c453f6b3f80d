import Annals.Assoc
import Annals.Process.Basic

/-!
# Scripted commands

What becomes of commands, written down in advance: for each first argument the outcomes of the commands
with it, in turn. The last outcome repeats, and a command that is not written down cannot be started.
-/

namespace Annals

/-- The outcomes of commands in turn, by their first argument. -/
abbrev Script := Assoc Text (List Outcome)

def firstArgument? : List Text → Option Text
  | _ :: arg :: _ => some arg
  | _ => none

namespace Script

/-- The outcome at a turn; the last one repeats. -/
def atTurn : Nat → List Outcome → Outcome
  | _, [] => .unstartable .missing
  | _, [o] => o
  | 0, o :: _ => o
  | turn + 1, _ :: os => atTurn turn os

/-- What becomes of a command after earlier runs. -/
def outcome (s : Script) (earlier : List Run) (argv : List Text) : Outcome :=
  match firstArgument? argv with
  | none => .unstartable .missing
  | some arg =>
    let turn := earlier.countP fun run => firstArgument? run.command.argv = some arg
    atTurn turn ((Assoc.get? arg s).getD [])

end Script

end Annals

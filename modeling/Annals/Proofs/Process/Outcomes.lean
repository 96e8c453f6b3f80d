import Annals.Process.Execute

/-!
# What becomes of commands

A command is rejected, or does not come to an end, since it is not started or is stopped at its time limit
(`Outcome.IsUnfinished`), or comes to an exit by itself (`Outcome.EndsWith`).

Whether a command is rejected is up to the system, and `Command.faced` tells when it is. No other
definition and no law of the operations depends on it; it shows which rejections there are.
-/

namespace Annals

namespace Outcome

/-- What a command that was started prints and how it exits if it is not stopped. -/
def exit? : Outcome → Option Exit
  | rejected _ => none
  | unstartable _ => none
  | exits e => some e
  | hangs e => some e

/-- Whether a command is started and prints what is said before it exits or is stopped. -/
def Prints (o : Outcome) (e : Exit) : Prop := o = .exits e ∨ o = .hangs e

/-- Whether a command with or without a time limit comes to an end by itself, and in which way. -/
def EndsWith (o : Outcome) (limit? : Option TimeLimit) (e : Exit) : Prop :=
  o = .exits e ∨ o = .hangs e ∧ limit? = none

instance (o : Outcome) (limit? : Option TimeLimit) (e : Exit) : Decidable (o.EndsWith limit? e) :=
  inferInstanceAs (Decidable (o = .exits e ∨ o = .hangs e ∧ limit? = none))

/-- Whether a command does not come to an end: it is not started, or is stopped at its time limit. -/
def IsUnfinished (o : Outcome) (limit? : Option TimeLimit) : Prop :=
  (∃ fault, o = .unstartable fault) ∨ ∃ e, o = .hangs e ∧ limit? ≠ none

/-- Whether a command cannot be run as it is. -/
def IsRejected (o : Outcome) : Prop := ∃ fault, o = .rejected fault

variable {o : Outcome} {e e' : Exit} {limit? : Option TimeLimit}

theorem exit?_eq_some_iff : o.exit? = some e ↔ o.Prints e := by
  cases o <;> simp [exit?, Prints]

theorem Prints.eq (h : o.Prints e) (h' : o.Prints e') : e = e' :=
  Option.some.inj ((exit?_eq_some_iff.mpr h).symm.trans (exit?_eq_some_iff.mpr h'))

theorem EndsWith.prints (h : o.EndsWith limit? e) : o.Prints e :=
  h.imp_right And.left

theorem isRejected_or_isUnfinished_or_endsWith (o : Outcome) (limit? : Option TimeLimit) :
    o.IsRejected ∨ o.IsUnfinished limit? ∨ ∃ e, o.EndsWith limit? e := by
  cases o with
  | rejected fault => exact .inl ⟨fault, rfl⟩
  | unstartable fault => exact .inr (.inl (.inl ⟨fault, rfl⟩))
  | exits e => exact .inr (.inr ⟨e, .inl rfl⟩)
  | hangs e =>
    by_cases hlimit : limit? = none
    · exact .inr (.inr ⟨e, .inr ⟨rfl, hlimit⟩⟩)
    · exact .inr (.inl (.inr ⟨e, rfl, hlimit⟩))

end Outcome

/-! ## What the system rejects -/

/-- The number of milliseconds that the system waits for at the most. -/
def longestWait : Nat := 2147483647

/-- Whether a time limit is longer than the system waits for. -/
def TimeLimit.isOverlong (limit : TimeLimit) : Bool :=
  match limit.seconds? with
  | none => true
  | some s => longestWait < 1000 * s

theorem TimeLimit.isOverlong_ofInt (n : Int) :
    (ofInt n).isOverlong = decide ((longestWait : Int) < 1000 * n) := by
  have hscaled : (1000 : Rat) * (n : Rat) = ((1000 * n : Int) : Rat) := by
    rw [Rat.intCast_mul]
    rfl
  have hwait : (longestWait : Rat) = ((longestWait : Int) : Rat) := rfl
  simp only [isOverlong, ofInt, hscaled, hwait, Rat.intCast_lt_intCast]

namespace Command

/-- Whether a word of a command, or its directory, holds a NUL. -/
def holdsNul (c : Command) : Bool :=
  c.argv.any (·.contains '\x00') || c.dir.any (·.toText.contains '\x00')

/-- Whether a command is started, but has a time limit that is longer than the system waits for. -/
def overstays (c : Command) (o : Outcome) : Bool :=
  c.argv ≠ [] && !c.holdsNul && o.exit?.isSome && c.timeout.any (·.isOverlong)

/-- What becomes of a command of which the system makes what is said, unless it rejects it. The system
waits for a process while its output is captured. To stream the output it sets a timer, for which no time
limit is too long. -/
def faced (c : Command) (m : Mode) (words : Text) (o : Outcome) : Outcome :=
  if c.argv = [] then .rejected .empty
  else if c.holdsNul then .rejected .holdsNul
  else if m = .captured ∧ c.overstays o then .rejected (.overlong words)
  else o

variable {c : Command} {words : Text} {o : Outcome}

/-- Capturing the output makes no difference but for a time limit that is too long. -/
theorem faced_captured :
    c.faced .captured words o =
      if c.overstays o then .rejected (.overlong words) else c.faced .streamed words o := by
  unfold faced overstays
  by_cases hempty : c.argv = []
  · simp [hempty]
  · by_cases hnul : c.holdsNul
    · simp [hempty, hnul]
    · simp [hempty, hnul]

/-- The system rejects a command that names no tool, one with a NUL, and one that it would have to wait for
longer than it does; no other. -/
theorem faced_eq_rejected_iff {m : Mode} {fault : CommandFault} (ho : ¬o.IsRejected) :
    c.faced m words o = .rejected fault ↔
      c.argv = [] ∧ fault = .empty ∨
      c.argv ≠ [] ∧ c.holdsNul = true ∧ fault = .holdsNul ∨
      m = .captured ∧ c.overstays o = true ∧ fault = .overlong words := by
  unfold faced
  by_cases hempty : c.argv = []
  · simp [hempty, overstays, eq_comm (a := fault)]
  by_cases hnul : c.holdsNul = true
  · simp [hempty, hnul, overstays, eq_comm (a := fault)]
  by_cases hlong : m = .captured ∧ c.overstays o = true
  · simp [hempty, hnul, hlong, eq_comm (a := fault)]
  · have hgiven : o ≠ .rejected fault := fun h => ho ⟨fault, h⟩
    rw [if_neg hempty, if_neg hnul, if_neg hlong]
    refine iff_of_false hgiven ?_
    rintro (⟨h, -⟩ | ⟨-, h, -⟩ | ⟨hm, h, -⟩)
    · exact hempty h
    · exact hnul h
    · exact hlong ⟨hm, h⟩

theorem isRejected_faced_or (c : Command) (m : Mode) (words : Text) (o : Outcome) :
    (c.faced m words o).IsRejected ∨ c.faced m words o = o := by
  unfold faced
  split
  · exact .inl ⟨_, rfl⟩
  split
  · exact .inl ⟨_, rfl⟩
  split
  · exact .inl ⟨_, rfl⟩
  · exact .inr rfl

theorem prints_of_faced {m : Mode} {e : Exit} (h : (c.faced m words o).Prints e) : o.Prints e := by
  rcases c.isRejected_faced_or m words o with ⟨fault, hrejected⟩ | hsame
  · rw [hrejected] at h
    exact (h.elim nofun nofun)
  · rwa [hsame] at h

end Command

end Annals

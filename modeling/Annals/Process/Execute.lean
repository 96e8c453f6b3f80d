import Annals.Process.Basic
import Annals.Process.Lines

/-!
# Running commands

What a caller sees of a command, given what becomes of it. `capture` keeps the whole output. `stream`
hands the lines of the output to a handler, which carries a state along, may make notes, and may fail;
a failing handler stops the process, and its failure is what the caller sees. Neither answers for a
command that is at fault itself.
-/

namespace Annals

/-- What a line handler makes of a line: its new state, notes, and a failure if it refuses it. -/
structure Fed (σ ε : Type) where
  state : σ
  notes : List Note := []
  failure? : Option ε := none

namespace Fed

variable {σ ε : Type}

/-- Feeds lines to a handler until it refuses one. -/
def all (feed : σ → Text → Fed σ ε) : σ → List Text → Fed σ ε
  | s, [] => ⟨s, [], none⟩
  | s, line :: lines =>
    let one := feed s line
    match one.failure? with
    | some _ => one
    | none =>
      let rest := all feed one.state lines
      { rest with notes := one.notes ++ rest.notes }

end Fed

/-- What the caller of a command sees, and the record of the run: what is wrong with the command, or what
became of the process. -/
structure Captured where
  run : Run
  notes : List Note
  result : Except CommandFault (Except ProcessFailure Result)

/-- What the caller of a streamed command sees: the handler's state, and what is wrong with the command,
the handler's failure, or what became of the process. -/
structure Streamed (σ ε : Type) where
  run : Run
  notes : List Note
  state : σ
  result : Except CommandFault (Except ε (Except ProcessFailure Result))

namespace Command

variable {σ ε : Type}

/-- What comes of a command that the system did not start. The failure names the tool, for which there has
to be one. -/
def notStarted (c : Command) (fault : StartFault) : Except CommandFault ProcessFailure :=
  match c.argv with
  | [] => .error .empty
  | tool :: _ => .ok (.notStarted tool fault)

/-- Runs a command and keeps its output. Any time limit, even 0, stops a process that hangs. -/
def capture (c : Command) (outcome : Outcome) : Captured :=
  let finished (e : Exit) : Captured :=
    let r : Result := ⟨e.code, e.stdout, Utf8.decode e.stderr⟩
    ⟨⟨c, .captured, true, false⟩, [c.startNote, r.endNote], .ok (.ok r)⟩
  let failed (f : Except CommandFault ProcessFailure) : Captured :=
    ⟨⟨c, .captured, true, false⟩, [c.startNote], f.map .error⟩
  match outcome with
  | .rejected fault => failed (.error fault)
  | .unstartable fault => failed (c.notStarted fault)
  | .exits e => finished e
  | .hangs e =>
    match c.timeout with
    | none => finished e
    | some limit => failed (.ok (.timedOut limit c.argv))

/-- The time limit of a streamed command: a limit of 0 is none. -/
def streamLimit? (c : Command) : Option TimeLimit :=
  match c.timeout with
  | none => none
  | some limit => if limit.isZero then none else some limit

/-- Runs a command and hands the lines of its output to a handler. -/
def stream (c : Command) (outcome : Outcome) (feed : σ → Text → Fed σ ε) (init : σ) :
    Streamed σ ε :=
  let timed := c.streamLimit?.isSome
  let failed (f : Except CommandFault ProcessFailure) : Streamed σ ε :=
    ⟨⟨c, .streamed, false, false⟩, [c.startNote], init, f.map fun cause => .ok (.error cause)⟩
  let read (e : Exit) (limit? : Option TimeLimit) : Streamed σ ε :=
    let fed := Fed.all feed init (textLines e.stdout)
    match fed.failure? with
    | some f => ⟨⟨c, .streamed, timed, true⟩, c.startNote :: fed.notes, fed.state, .ok (.error f)⟩
    | none =>
      match limit? with
      | some limit =>
        ⟨⟨c, .streamed, timed, true⟩, c.startNote :: fed.notes, fed.state,
          .ok (.ok (.error (.timedOut limit c.argv)))⟩
      | none =>
        let r : Result := ⟨e.code, [], Utf8.decode e.stderr⟩
        ⟨⟨c, .streamed, timed, false⟩, c.startNote :: (fed.notes ++ [r.endNote]), fed.state,
          .ok (.ok (.ok r))⟩
  match outcome with
  | .rejected fault => failed (.error fault)
  | .unstartable fault => failed (c.notStarted fault)
  | .exits e => read e none
  | .hangs e => read e c.streamLimit?

end Command

end Annals

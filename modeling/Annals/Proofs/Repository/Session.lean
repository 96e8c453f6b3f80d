import Annals.Proofs.Process.Outcomes
import Annals.Repository.Basic

/-!
# Actions on sessions

`Work.runOn` is what an action gives in a session, along with the session after it. The lemmas about it
take an action apart into its steps; those about the tool say which command is run (`toolCommand`), and
what its caller sees (`runOn_capture`, `runOn_stream`).
-/

namespace Annals

/-- What a caller in a session sees of a streamed command. -/
def Streamed.answer {σ : Type} (out : Streamed σ Failure) :
    Except Failure (σ × Except ProcessFailure Result) :=
  match out.result with
  | .error fault => .error (.badCommand fault)
  | .ok (.error f) => .error f
  | .ok (.ok result) => .ok (out.state, result)

namespace World

/-- A world in which all commands come to the same exit. -/
def exiting (e : Exit) : World := { outcome := fun _ _ => .exits e }

/-- A world in which the system makes what is said of commands with a time limit, unless it rejects them:
then it waits for those that are captured. -/
def facing (limit? : Option TimeLimit) (mode : List Text → Mode) (words : Text)
    (o : List Text → Outcome) : World :=
  { outcome := fun _ argv => Command.faced { argv, timeout := limit? } (mode argv) words (o argv) }

/-- Whether commands with a time limit are rejected in a world only as the system does. -/
def IsLawful (w : World) (limit? : Option TimeLimit) : Prop :=
  ∀ runs argv, (w.outcome runs argv).IsRejected → ∃ dir? m words o, ¬o.IsRejected ∧
    w.outcome runs argv = Command.faced { argv, dir := dir?, timeout := limit? } m words o

theorem isLawful_facing {limit? : Option TimeLimit} {mode : List Text → Mode} {words : Text}
    {o : List Text → Outcome} (h : ∀ argv, ¬(o argv).IsRejected) :
    (facing limit? mode words o).IsLawful limit? :=
  fun _ argv _ => ⟨none, mode argv, words, o argv, h argv, rfl⟩

/-- A command that is started and captured is rejected with a time limit that is too long. -/
theorem outcome_facing_of_overstays {limit? : Option TimeLimit} {mode : List Text → Mode}
    {words : Text} {o : List Text → Outcome} {argv : List Text} (hmode : mode argv = .captured)
    (hlong : Command.overstays { argv, timeout := limit? } (o argv) = true) (runs : List Run) :
    (facing limit? mode words o).outcome runs argv = .rejected (.overlong words) := by
  simp only [facing, hmode, Command.faced_captured, hlong, if_true]

end World

namespace Work

variable {α β : Type}

/-- What an action gives in a session, and the session after it. -/
def runOn (x : Work α) (s : Session) : Except Failure α × Session := x.run.run s

@[simp] theorem runOn_pure (a : α) (s : Session) : runOn (pure a : Work α) s = (.ok a, s) := rfl

@[simp] theorem runOn_throw (f : Failure) (s : Session) :
    runOn (throw f : Work α) s = (.error f, s) := rfl

@[simp] theorem runOn_get (s : Session) : runOn (get : Work Session) s = (.ok s, s) := rfl

@[simp] theorem runOn_set (s s' : Session) : runOn (set s' : Work Unit) s = (.ok (), s') := rfl

@[simp] theorem runOn_modify (g : Session → Session) (s : Session) :
    runOn (modify g : Work Unit) s = (.ok (), g s) := rfl

@[simp] theorem runOn_note (notes : List Note) (s : Session) :
    runOn (note notes) s = (.ok (), { s with notes := s.notes ++ notes }) := rfl

/-- An action that succeeds is followed by the next one; one that fails is the last. -/
theorem runOn_bind (x : Work α) (g : α → Work β) (s : Session) :
    runOn (x >>= g) s =
      match runOn x s with
      | (.ok a, s') => runOn (g a) s'
      | (.error f, s') => (.error f, s') := by
  simp only [runOn, ExceptT.run_bind, StateT.run_bind]
  rcases x.run.run s with ⟨a | f, s'⟩ <;> rfl

theorem runOn_bind_of_ok {x : Work α} {g : α → Work β} {s s' : Session} {a : α}
    (h : runOn x s = (.ok a, s')) : runOn (x >>= g) s = runOn (g a) s' := by
  rw [runOn_bind, h]

theorem runOn_bind_of_error {x : Work α} {s s' : Session} {f : Failure}
    (h : runOn x s = (.error f, s')) (g : α → Work β) : runOn (x >>= g) s = (.error f, s') := by
  rw [runOn_bind, h]

/-- What was found is gone on with. -/
theorem runOn_lookUp_bind_of_ok {x : Except PathFault α} {a : α} (h : x = .ok a) (g : α → Work β)
    (s : Session) : runOn (lookUp x >>= g) s = runOn (g a) s := by
  subst h
  rfl

/-- A path at fault ends an action before it changes anything. -/
theorem runOn_lookUp_bind_of_error {x : Except PathFault α} {fault : PathFault} (h : x = .error fault)
    (g : α → Work β) (s : Session) : runOn (lookUp x >>= g) s = (.error (.badPath fault), s) := by
  subst h
  rfl

end Work

namespace Repository

variable (r : Repository) (w : World) (s : Session)

/-- The executable of the tool in a session: the one found out before, or the one to be found out. -/
def executable : Text :=
  s.command.value?.getD
    (r.config.commandFor w.environment r.backend.kind r.backend.usualCommand)

/-- The command of the tool with arguments, run in a directory. -/
def toolCommand (dir? : Option Path) (args : List Text) : Command :=
  { argv := r.executable w s :: args, dir := dir?, timeout := r.config.timeout.map .ofInt }

/-- The session in which the executable has been found out. -/
def knowing : Session := { s with command := ⟨some (r.executable w s)⟩ }

section

variable {r w s}

theorem knowing_command : (r.knowing w s).command.value? = some (r.executable w s) := rfl

theorem executable_of_some {tool : Text} (h : s.command.value? = some tool) :
    r.executable w s = tool := by
  rw [executable, h]
  rfl

theorem executable_of_none (h : s.command.value? = none) :
    r.executable w s = r.config.commandFor w.environment r.backend.kind r.backend.usualCommand := by
  rw [executable, h]
  rfl

end

theorem runOn_command : (r.command w).runOn s = (.ok (r.executable w s), r.knowing w s) := by
  obtain ⟨⟨value?⟩, status, tags, runs, notes⟩ := s
  cases value? <;> rfl

theorem runOn_commandWith (dir? : Option Path) (args : List Text) :
    (r.commandWith w dir? args).runOn s =
      (.ok (r.toolCommand w s dir? args), r.knowing w s) := by
  rw [commandWith, Work.runOn_bind_of_ok (r.runOn_command w s)]
  rfl

/-- A captured command is run as the tool's command in the world, after the runs before it. -/
theorem runOn_capture (dir? : Option Path) (args : List Text) :
    (r.capture w dir? args).runOn s =
      let c := r.toolCommand w s dir? args
      let out := c.capture (w.outcome s.runs c.argv)
      (out.result.mapError .badCommand,
        { r.knowing w s with runs := s.runs ++ [out.run], notes := s.notes ++ out.notes }) := by
  rw [capture, Work.runOn_bind_of_ok (r.runOn_commandWith w s dir? args),
    Work.runOn_bind_of_ok (Work.runOn_get _), Work.runOn_bind_of_ok (Work.runOn_set _ _)]
  generalize r.toolCommand w s dir? args = c
  simp only [knowing]
  cases (c.capture (w.outcome s.runs c.argv)).result <;> rfl

/-- A streamed command is run as the tool's command in the world, after the runs before it. -/
theorem runOn_stream {σ : Type} (dir? : Option Path) (args : List Text)
    (feed : σ → Text → Fed σ Failure) (init : σ) :
    (r.stream w dir? args feed init).runOn s =
      let c := r.toolCommand w s dir? args
      let out := c.stream (w.outcome s.runs c.argv) feed init
      (out.answer, { r.knowing w s with runs := s.runs ++ [out.run], notes := s.notes ++ out.notes }) := by
  rw [stream, Work.runOn_bind_of_ok (r.runOn_commandWith w s dir? args),
    Work.runOn_bind_of_ok (Work.runOn_get _), Work.runOn_bind_of_ok (Work.runOn_set _ _)]
  generalize r.toolCommand w s dir? args = c
  simp only [knowing]
  unfold Streamed.answer
  rcases (c.stream (w.outcome s.runs c.argv) feed init).result with fault | f | result <;> rfl

end Repository

end Annals

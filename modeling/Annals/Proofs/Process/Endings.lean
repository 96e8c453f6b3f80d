import Annals.Proofs.Process.Modes

/-!
# How commands end

`Command.ending` says what comes of a command under a time limit: it cannot be run as it is, it does not
come to an end, or it comes to an exit. The result of a captured command depends on nothing else
(`result_capture`), and that of a streamed one only on whether its handler refuses a line besides
(`result_stream_eq`). Running a command is never noted as an error: what its end means is for the caller
to say.
-/

namespace Annals

namespace Command

section Runs

variable (c : Command) (o : Outcome)

theorem run_capture : (c.capture o).run = ⟨c, .captured, true, false⟩ := by
  cases o with
  | rejected fault => rfl
  | unstartable fault => rfl
  | exits e => rfl
  | hangs e =>
    unfold capture
    cases c.timeout <;> rfl

theorem command_run_stream {σ ε : Type} (feed : σ → Text → Fed σ ε) (init : σ) :
    (c.stream o feed init).run.command = c := by
  cases o with
  | rejected fault => rfl
  | unstartable fault => rfl
  | exits e =>
    simp only [stream]
    split <;> rfl
  | hangs e =>
    simp only [stream]
    split
    · rfl
    · split <;> rfl

end Runs

variable {σ ε : Type} (c : Command) (limit? : Option TimeLimit)

/-- How a command ends under a time limit: with an exit, or not at all, unless it cannot be run. -/
def ending : Outcome → Except CommandFault (Except ProcessFailure Exit)
  | .rejected fault => .error fault
  | .unstartable fault => (c.notStarted fault).map .error
  | .exits e => .ok (.ok e)
  | .hangs e =>
    match limit? with
    | none => .ok (.ok e)
    | some limit => .ok (.error (.timedOut limit c.argv))

/-- A command that names a tool comes to an end, or does not, unless it is rejected. -/
theorem ending_eq_error_iff {o : Outcome} {fault : CommandFault} (htool : c.argv ≠ []) :
    c.ending limit? o = .error fault ↔ o = .rejected fault := by
  cases o with
  | rejected fault' => simp [ending]
  | unstartable fault' =>
    obtain ⟨tool, args, hargv⟩ := List.exists_cons_of_ne_nil htool
    simp [ending, notStarted, hargv, Except.map]
  | exits e => simp [ending]
  | hangs e => cases limit? <;> simp [ending]

theorem ending_eq_ok_iff {o : Outcome} {e : Exit} :
    c.ending limit? o = .ok (.ok e) ↔ o.EndsWith limit? e := by
  cases o with
  | rejected fault => simp [ending, Outcome.EndsWith]
  | unstartable fault =>
    cases hfault : c.notStarted fault <;> simp [ending, Outcome.EndsWith, hfault, Except.map]
  | exits e' => simp [ending, Outcome.EndsWith]
  | hangs e' => cases limit? <;> simp [ending, Outcome.EndsWith]

theorem ending_of_isUnfinished {o : Outcome} (htool : c.argv ≠ []) (h : o.IsUnfinished limit?) :
    ∃ cause, c.ending limit? o = .ok (.error cause) := by
  rcases h with ⟨fault, rfl⟩ | ⟨e, rfl, hlimit⟩
  · obtain ⟨tool, args, hargv⟩ := List.exists_cons_of_ne_nil htool
    refine ⟨.notStarted tool fault, ?_⟩
    rw [ending, notStarted, hargv]
    rfl
  · obtain ⟨limit, rfl⟩ := Option.ne_none_iff_exists'.mp hlimit
    exact ⟨_, rfl⟩

theorem result_capture (o : Outcome) :
    (c.capture o).result = (c.ending c.timeout o).map fun ended =>
      ended.map fun e => ⟨e.code, e.stdout, Utf8.decode e.stderr⟩ := by
  cases o with
  | rejected fault => rfl
  | unstartable fault =>
    simp only [capture, ending]
    cases c.notStarted fault <;> rfl
  | exits e => rfl
  | hangs e =>
    unfold capture ending
    cases c.timeout <;> rfl

/-- A line that is refused is what the caller hears of, whether the time limit has passed or not. -/
theorem result_stream_eq (o : Outcome) (feed : σ → Text → Fed σ ε) (init : σ) :
    (c.stream o feed init).result =
      match o.exit?.bind fun e => (Fed.all feed init (textLines e.stdout)).failure? with
      | some f => .ok (.error f)
      | none => (c.ending c.streamLimit? o).map fun ended =>
        .ok (ended.map fun e => ⟨e.code, [], Utf8.decode e.stderr⟩) := by
  cases o with
  | rejected fault => rfl
  | unstartable fault =>
    simp only [stream, ending, Outcome.exit?, Option.bind_none]
    cases c.notStarted fault <;> rfl
  | exits e =>
    simp only [stream, Outcome.exit?, Option.bind_some]
    cases (Fed.all feed init (textLines e.stdout)).failure? <;> rfl
  | hangs e =>
    simp only [stream, Outcome.exit?, Option.bind_some, ending]
    cases (Fed.all feed init (textLines e.stdout)).failure? with
    | some f => rfl
    | none => cases c.streamLimit? <;> rfl

/-- A command whose output a handler takes without failing is streamed to its end. -/
theorem stream_of_endsWith {c : Command} {o : Outcome} {e : Exit} (feed : σ → Text → Fed σ ε)
    (init : σ) (hend : o.EndsWith c.streamLimit? e)
    (hfed : (Fed.all feed init (textLines e.stdout)).failure? = none) :
    (c.stream o feed init).state = (Fed.all feed init (textLines e.stdout)).state ∧
      (c.stream o feed init).result = .ok (.ok (.ok ⟨e.code, [], Utf8.decode e.stderr⟩)) := by
  rcases hend with rfl | ⟨rfl, hlimit⟩
  · simp [stream, hfed]
  · simp [stream, hfed, hlimit]

theorem not_isError_capture (o : Outcome) : ∀ note ∈ (c.capture o).notes, note.isError = false := by
  have hstart : c.startNote.isError = false := rfl
  have hend (r : Result) : r.endNote.isError = false := rfl
  cases o with
  | rejected fault => exact List.forall_mem_singleton.mpr hstart
  | unstartable fault => exact List.forall_mem_singleton.mpr hstart
  | exits e => simp [capture, hstart, hend]
  | hangs e => cases hlimit : c.timeout <;> simp [capture, hlimit, hstart, hend]

/-- The errors that are noted while a command is streamed are those of its handler. -/
theorem not_isError_stream (o : Outcome) {feed : σ → Text → Fed σ ε} {init : σ}
    (hfeed : ∀ lines, ∀ note ∈ (Fed.all feed init lines).notes, note.isError = false) :
    ∀ note ∈ (c.stream o feed init).notes, note.isError = false := by
  have hstart : c.startNote.isError = false := rfl
  have hread (e : Exit) :
      ∀ note ∈ c.startNote :: (Fed.all feed init (textLines e.stdout)).notes, note.isError = false :=
    List.forall_mem_cons.mpr ⟨hstart, hfeed (textLines e.stdout)⟩
  have hdone (e : Exit) (r : Result) :
      ∀ note ∈ c.startNote :: ((Fed.all feed init (textLines e.stdout)).notes ++ [r.endNote]),
        note.isError = false :=
    List.forall_mem_append.mpr ⟨hread e, List.forall_mem_singleton.mpr rfl⟩
  cases o with
  | rejected fault => exact List.forall_mem_singleton.mpr hstart
  | unstartable fault => exact List.forall_mem_singleton.mpr hstart
  | exits e =>
    simp only [stream]
    cases (Fed.all feed init (textLines e.stdout)).failure? with
    | some f => exact hread e
    | none => exact hdone e _
  | hangs e =>
    simp only [stream]
    cases (Fed.all feed init (textLines e.stdout)).failure? with
    | some f => exact hread e
    | none =>
      cases c.streamLimit? with
      | some limit => exact hread e
      | none => exact hdone e _

/-- The text that a captured command prints, if it ends with status 0. -/
def printed? (o : Outcome) : Except CommandFault (Option Text) :=
  (c.ending c.timeout o).map fun
    | .error _ => none
    | .ok e => if e.code = 0 then some (Utf8.decode e.stdout) else none

end Command

end Annals

import Annals.Proofs.Repository.Requests
import Annals.Proofs.Repository.Tagging

/-!
# Tasks for the tool

The operations that fail with the tool have one shape. They give the tool a `Task`, and either the tool
comes to an exit from which an answer is made, or they fail: because a line of the output is refused,
because the tool does not come to an end, or because it ends with a status that tells of an error; or
because the command is rejected, which is passed on as it is.
`Task.settle` says which, and is all that the answer of an operation depends on: for a captured output
by `runOn_capture_task`, for a streamed one by `runOn_stream_task`, and so for each operation.
-/

namespace Annals

/-- What an operation has the tool do, and what it says of it when it fails. -/
structure Task where
  command : Command
  names_tool : command.argv ≠ []
  mode : Mode
  /-- What the tool is run for, as it is told of a tool that does not come to an end. -/
  purpose : Text
  /-- The same, as it is told of a tool that ends with a status that tells of an error. -/
  action : Text
  /-- The failure at the first line of the output that is refused. -/
  refusal? : List Text → Option Failure := fun _ => none
  /-- Whether an exit is an answer of the tool. -/
  answers : Exit → Bool
  answers_of_success : ∀ e, e.code = 0 → answers e = true

namespace Task

variable (t : Task)

def limit? : Option TimeLimit :=
  match t.mode with
  | .captured => t.command.timeout
  | .streamed => t.command.streamLimit?

/-- The failure of the tool with a status that tells of an error. -/
def refused (e : Exit) : Failure :=
  .refused t.action t.command.argv e.code (Utf8.decode e.stderr)

/-- The exit of the tool, from which an answer is made, or why there is none. -/
def settle (o : Outcome) : Except Failure Exit :=
  match o.exit?.bind fun e => t.refusal? (textLines e.stdout) with
  | some f => .error f
  | none =>
    match t.command.ending t.limit? o with
    | .error fault => .error (.badCommand fault)
    | .ok (.error cause) => .error (.unfinished t.purpose cause)
    | .ok (.ok e) => if t.answers e then .ok e else .error (t.refused e)

/-- Whether no line that the tool prints is refused. -/
def Accepts (o : Outcome) : Prop := ∀ e, o.Prints e → t.refusal? (textLines e.stdout) = none

variable {t} {o : Outcome} {e : Exit}

theorem Accepts.exit? (h : t.Accepts o) :
    (o.exit?.bind fun e => t.refusal? (textLines e.stdout)) = none := by
  rw [Option.bind_eq_none_iff]
  exact fun e he => h e (Outcome.exit?_eq_some_iff.mp he)

theorem accepts_of_prints (h : o.Prints e) (hlines : t.refusal? (textLines e.stdout) = none) :
    t.Accepts o := by
  intro e' h'
  rw [← h.eq h', hlines]

theorem settle_rejected (t : Task) (fault : CommandFault) :
    t.settle (.rejected fault) = .error (.badCommand fault) := rfl

theorem settle_of_isUnfinished (hlines : t.Accepts o) (h : o.IsUnfinished t.limit?) :
    ∃ cause, t.settle o = .error (.unfinished t.purpose cause) := by
  obtain ⟨cause, hcause⟩ := t.command.ending_of_isUnfinished t.limit? t.names_tool h
  refine ⟨cause, ?_⟩
  rw [settle, hlines.exit?, hcause]

theorem settle_of_endsWith (hlines : t.Accepts o) (h : o.EndsWith t.limit? e) :
    t.settle o = if t.answers e then .ok e else .error (t.refused e) := by
  rw [settle, hlines.exit?, (t.command.ending_eq_ok_iff t.limit?).mpr h]

theorem settle_of_refusal {f : Failure} (h : o.Prints e)
    (hf : t.refusal? (textLines e.stdout) = some f) : t.settle o = .error f := by
  rw [settle, Outcome.exit?_eq_some_iff.mpr h, Option.bind_some, hf]

/-- A task is settled with an exit only if the tool comes to it by itself. -/
theorem of_settle_eq_ok (h : t.settle o = .ok e) :
    t.Accepts o ∧ o.EndsWith t.limit? e ∧ (t.answers e) := by
  by_cases hlines : t.Accepts o
  · rcases o.isRejected_or_isUnfinished_or_endsWith t.limit? with ⟨fault, rfl⟩ | hend | ⟨e', hend⟩
    · contradiction
    · obtain ⟨cause, hcause⟩ := settle_of_isUnfinished hlines hend
      rw [hcause] at h
      contradiction
    · rw [settle_of_endsWith hlines hend] at h
      split at h
      · next hcode =>
        obtain rfl := Except.ok.inj h
        exact ⟨hlines, hend, hcode⟩
      · contradiction
  · obtain ⟨e', hrefused⟩ := not_forall.mp hlines
    obtain ⟨hprints, hrefused⟩ := Classical.not_imp.mp hrefused
    obtain ⟨f, hf⟩ := Option.ne_none_iff_exists'.mp hrefused
    rw [settle_of_refusal hprints hf] at h
    contradiction

/-- The ways in which a task fails. -/
theorem of_settle_eq_error {f : Failure} (h : t.settle o = .error f) :
    (∃ e, o.Prints e ∧ t.refusal? (textLines e.stdout) = some f) ∨
      (∃ fault, f = .badCommand fault ∧ o = .rejected fault) ∨
      (∃ cause, f = .unfinished t.purpose cause) ∨ ∃ e, f = t.refused e := by
  unfold settle at h
  split at h
  · next f' hf =>
    obtain ⟨e, he, hrefused⟩ := Option.bind_eq_some_iff.mp hf
    obtain rfl := Except.error.inj h
    exact .inl ⟨e, Outcome.exit?_eq_some_iff.mp he, hrefused⟩
  · split at h
    · next fault hending =>
      have hrejected := (t.command.ending_eq_error_iff t.limit? t.names_tool).mp hending
      exact .inr (.inl ⟨fault, (Except.error.inj h).symm, hrejected⟩)
    · next cause _ => exact .inr (.inr (.inl ⟨cause, (Except.error.inj h).symm⟩))
    · next e _ =>
      split at h
      · contradiction
      · exact .inr (.inr (.inr ⟨e, (Except.error.inj h).symm⟩))

end Task

namespace Repository

variable (r : Repository) (w : World) (s : Session)

section Refusing

variable {α : Type} {tool : Text} (h : s.command.value? = some tool) (action : Text)
  (args : List Text) (result : Result)

include h

/-- The failure of the tool is told with the executable that was run. -/
theorem runOn_refuse :
    (r.refuse w action args result : Work α).runOn s =
      (.error (.refused action (tool :: args) result.code result.stderr), r.knowing w s) := by
  rw [refuse, Work.runOn_bind_of_ok (r.runOn_command w s), executable_of_some h]
  rfl

/-- Most operations go on with status 0 only. -/
theorem runOn_unless_refused (x : Work α) :
    ((if result.code ≠ 0 then r.refuse w action args result else x).runOn s).1 =
      if decide (result.code = 0) then (x.runOn s).1
      else .error (.refused action (tool :: args) result.code result.stderr) := by
  by_cases hcode : result.code = 0
  · simp [hcode]
  · simp [hcode, runOn_refuse r w s h]

theorem runOn_unless_refused_bind {β : Type} (x : Work β) :
    (((if result.code ≠ 0 then r.refuse w action args result else pure ()) >>= fun _ => x).runOn
        s).1 =
      if decide (result.code = 0) then (x.runOn s).1
      else .error (.refused action (tool :: args) result.code result.stderr) := by
  by_cases hcode : result.code = 0
  · simp [hcode]
  · simp [hcode, Work.runOn_bind, runOn_refuse r w s h]

end Refusing

/-! ## Tasks in a session -/

variable {r w s} {α σ : Type} {t : Task} {dir? : Option Path} {args : List Text}

/-- An operation that captures the output answers from the exit of its task. -/
theorem runOn_capture_task (hcommand : t.command = r.toolCommand w s dir? args)
    (hmode : t.mode = .captured) (hlines : ∀ lines, t.refusal? lines = none)
    {g : Except ProcessFailure Result → Work α} (answer : Exit → Except Failure α)
    (hcause : ∀ cause s', ((g (.error cause)).runOn s').1 = .error (.unfinished t.purpose cause))
    (hexit : ∀ (e : Exit) (s' : Session), s'.command.value? = some (r.executable w s) →
      ((g (.ok ⟨e.code, e.stdout, Utf8.decode e.stderr⟩)).runOn s').1 =
        if t.answers e then answer e else .error (t.refused e)) :
    ((r.capture w dir? args >>= g).runOn s).1 =
      (t.settle (w.outcome s.runs t.command.argv)).bind answer := by
  have hcapture := r.runOn_capture w s dir? args
  have haccepts : t.Accepts (w.outcome s.runs t.command.argv) := fun e _ => hlines _
  have hlimit : t.limit? = t.command.timeout := by rw [Task.limit?, hmode]
  simp only [← hcommand, Command.result_capture] at hcapture
  rw [Work.runOn_bind, hcapture, Task.settle, haccepts.exit?, hlimit]
  rcases t.command.ending t.command.timeout (w.outcome s.runs t.command.argv) with fault | cause | e
  · rfl
  · exact hcause cause _
  · refine (hexit e _ rfl).trans ?_
    dsimp only
    split <;> rfl

/-- An operation that streams the output answers from the exit of its task. -/
theorem runOn_stream_task {feed : σ → Text → Fed σ Failure} {init : σ}
    (hcommand : t.command = r.toolCommand w s dir? args) (hmode : t.mode = .streamed)
    (hlines : ∀ lines, t.refusal? lines = (Fed.all feed init lines).failure?)
    {g : σ × Except ProcessFailure Result → Work α} (answer : Exit → Except Failure α)
    (hcause : ∀ state cause s',
      ((g (state, .error cause)).runOn s').1 = .error (.unfinished t.purpose cause))
    (hexit : ∀ (e : Exit) (s' : Session), s'.command.value? = some (r.executable w s) →
      ((g ((Fed.all feed init (textLines e.stdout)).state,
        .ok ⟨e.code, [], Utf8.decode e.stderr⟩)).runOn s').1 =
          if t.answers e then answer e else .error (t.refused e)) :
    ((r.stream w dir? args feed init >>= g).runOn s).1 =
      (t.settle (w.outcome s.runs t.command.argv)).bind answer := by
  have hstream := r.runOn_stream w s dir? args feed init
  have hlimit : t.limit? = t.command.streamLimit? := by rw [Task.limit?, hmode]
  simp only [← hcommand, Streamed.answer, Command.result_stream_eq, ← hlines] at hstream
  rw [Work.runOn_bind, hstream, Task.settle, hlimit]
  cases (w.outcome s.runs t.command.argv).exit?.bind fun e => t.refusal? (textLines e.stdout) with
  | some f => rfl
  | none =>
    rcases hending : t.command.ending t.command.streamLimit? (w.outcome s.runs t.command.argv) with
      fault | cause | e
    · rfl
    · exact hcause _ cause _
    · have hend := (t.command.ending_eq_ok_iff t.command.streamLimit?).mp hending
      simp only [Except.map, t.command.state_stream hend.prints]
      refine (hexit e _ rfl).trans ?_
      split <;> rfl

/-- An operation whose handler refuses a line is over with that, and the tool has been stopped. -/
theorem runOn_stream_of_refused {feed : σ → Text → Fed σ Failure} {init : σ} {e : Exit} {f : Failure}
    (hprints : (w.outcome s.runs (r.toolCommand w s dir? args).argv).Prints e)
    (hfed : (Fed.all feed init (textLines e.stdout)).failure? = some f)
    (g : σ × Except ProcessFailure Result → Work α) :
    ∃ run, run.command = r.toolCommand w s dir? args ∧ run.killed = true ∧
      ((r.stream w dir? args feed init >>= g).runOn s).1 = .error f ∧
      ((r.stream w dir? args feed init >>= g).runOn s).2.runs = s.runs ++ [run] := by
  have hstream := r.runOn_stream w s dir? args feed init
  obtain ⟨hkilled, hresult⟩ :=
    Command.stream_of_refused (c := r.toolCommand w s dir? args) hprints hfed
  simp only [Streamed.answer, hresult] at hstream
  have hbind := Work.runOn_bind_of_error hstream g
  exact ⟨_, Command.command_run_stream _ _ _ _, hkilled, by rw [hbind], by rw [hbind]⟩

/-! ## The operations -/

variable (r w s)

/-- A task whose output is captured. -/
def captureTask (dir : Path) (args : List Text) (purpose action : Text) : Task where
  command := r.toolCommand w s (some dir) args
  names_tool := List.cons_ne_nil _ _
  mode := .captured
  purpose := purpose
  action := action
  answers e := e.code = 0
  answers_of_success _ := decide_eq_true

/-- A task whose output goes to a handler. -/
def streamTask (dir : Path) (args : List Text) (purpose action : Text)
    (refusal? : List Text → Option Failure) : Task where
  command := r.toolCommand w s (some dir) args
  names_tool := List.cons_ne_nil _ _
  mode := .streamed
  purpose := purpose
  action := action
  refusal? := refusal?
  answers e := e.code = 0
  answers_of_success _ := decide_eq_true

def branchTask (dir? : Option Path) : Task :=
  r.captureTask w s (dir?.getD r.root) ["rev-parse", "--abbrev-ref", "HEAD"] "determine branch"
    "determine branch"

/-- The only task that may be answered with a status that tells of an error. -/
def parentTask (dir? : Option Path) : Task :=
  { r.captureTask w s (dir?.getD r.root) (parentArgs r.backend) "determine parent"
      "determine parent" with
    answers := fun e =>
      e.code = 0 ∨ saysNoParent r.backend ⟨e.code, e.stdout, Utf8.decode e.stderr⟩
    answers_of_success := fun _ h => decide_eq_true (.inl h) }

def updateTask : Task :=
  r.captureTask w s r.root ["pull", "--ff-only"] ("update " ++ r.root.toText) "update"

def historyTask (file : Path) (since? : Option Text) : Task :=
  let file := w.files.absolute file
  r.streamTask w s file.parent (historyArgs r.backend file.name since?)
    ("get history for " ++ file.toText) "get history"
    fun lines => (r.backend.logFormat.readLog since? lines).failure?

/-- The failure at the first line of an annotation that is refused. -/
def annotationRefusal? : Backend → (filename : Text) → List Text → Option Failure
  | .bitkeeper, filename, lines =>
    (Fed.all BitKeeper.AnnotationReader.feed { filename } lines).failure?
  | .git, filename, lines => (Fed.all Git.BlameReader.feed { filename } lines).failure?

/-- The annotation from lines none of which is refused. -/
def annotationOf : Backend → (filename : Text) → List Text → Except Failure Annotation
  | .bitkeeper, filename, lines =>
    .ok (Fed.all BitKeeper.AnnotationReader.feed { filename } lines).state.annotation
  | .git, filename, lines => (Fed.all Git.BlameReader.feed { filename } lines).state.annotation

/-- The task for a file whose links have been followed. -/
def annotationTask (file : Path) (revision? : Option Text) : Task :=
  r.streamTask w s file.parent (annotationArgs r.backend file.name revision?)
    ("annotate " ++ file.toText) "annotate" (annotationRefusal? r.backend file.name)

variable {r w s}

theorem answer_branch (hbackend : r.backend = .git) (dir? : Option Path) :
    let t := r.branchTask w s dir?
    ((r.branch w dir?).runOn s).1 = (t.settle (w.outcome s.runs t.command.argv)).bind fun e =>
      let name := (Utf8.decode e.stdout).trim
      .ok (if name = "HEAD" then none else some name) := by
  obtain ⟨backend, root, config⟩ := r
  obtain rfl : backend = .git := hbackend
  exact runOn_capture_task rfl rfl (fun _ => rfl) _ (fun _ _ => rfl)
    fun e s' hs' => runOn_unless_refused _ w s' hs' _ _ _ _

theorem answer_parent (dir? : Option Path) :
    let t := r.parentTask w s dir?
    ((r.parent w dir?).runOn s).1 = (t.settle (w.outcome s.runs t.command.argv)).bind fun e =>
      .ok (if e.code = 0 then (Utf8.decode e.stdout).trim.nonEmpty? else none) := by
  refine runOn_capture_task rfl rfl (fun _ => rfl) _ (fun _ _ => rfl) fun e s' hs' => ?_
  simp only [parentTask, decide_eq_true_eq]
  by_cases hcode : e.code = 0
  · simp only [hcode, true_or, if_true]
    rfl
  · by_cases hnone : saysNoParent r.backend ⟨e.code, e.stdout, Utf8.decode e.stderr⟩
    · simp only [hcode, hnone, or_true, if_true, if_false]
      rfl
    · simp only [hcode, hnone, if_false]
      exact congrArg Prod.fst (runOn_refuse r w s' hs' _ _ _)

theorem answer_update (hbackend : r.backend = .git) :
    let t := r.updateTask w s
    ((r.update w).runOn s).1 =
      (t.settle (w.outcome s.runs t.command.argv)).bind fun _ => .ok () := by
  obtain ⟨backend, root, config⟩ := r
  obtain rfl : backend = .git := hbackend
  exact runOn_capture_task rfl rfl (fun _ => rfl) _ (fun _ _ => rfl)
    fun e s' hs' => runOn_unless_refused _ w s' hs' _ _ _ _

/-- The tags come later, and are not part of the task. -/
theorem answer_readHistory (file : Path) (since? : Option Text) :
    let t := r.historyTask w s file since?
    ((r.readHistory w r.backend.logFormat (w.files.absolute file) since?).runOn s).1 =
      (t.settle (w.outcome s.runs t.command.argv)).bind fun e =>
        .ok (r.backend.logFormat.readLog since? (textLines e.stdout)).result :=
  runOn_stream_task rfl rfl (fun _ => rfl) _ (fun _ _ _ => rfl)
    fun _ s' hs' => runOn_unless_refused _ w s' hs' _ _ _ _

/-- Without a log there is no history, and nothing else is done for it. -/
theorem runOn_history_of_error {file : Path} {since? : Option Text} {f : Failure}
    (h : (r.historyTask w s file since?).settle
      (w.outcome s.runs (r.historyTask w s file since?).command.argv) = .error f) :
    (r.history w file since?).runOn s = (.error f, r.logged w s file since?) := by
  have hlog := answer_readHistory (r := r) (w := w) (s := s) file since?
  simp only [h] at hlog
  rw [history_eq, Work.runOn_bind_of_error (Prod.ext hlog rfl)]
  rfl

/-- A history is what is read of the log, with tags if they are shown. -/
theorem answer_history {file : Path} {since? : Option Text} {e : Exit}
    (h : (r.historyTask w s file since?).settle
      (w.outcome s.runs (r.historyTask w s file since?).command.argv) = .ok e) :
    let read := (r.backend.logFormat.readLog since? (textLines e.stdout)).result
    ((r.history w file since?).runOn s).1 =
      if r.config.tagsEnabled then
        (((r.tagList w).runOn (r.logged w s file since?)).1).map read.assignTags
      else .ok read := by
  intro read
  have hlog := answer_readHistory (r := r) (w := w) (s := s) file since?
  simp only [h] at hlog
  have hcapable : r.backend.capabilities.fileBasedTags = true := by
    cases r.backend <;> rfl
  rw [history_eq, Work.runOn_bind_of_ok (Prod.ext hlog rfl)]
  by_cases htags : r.config.tagsEnabled = true
  · rw [if_pos ⟨htags, hcapable⟩, if_pos htags]
    cases htagList : (r.tagList w).runOn (r.logged w s file since?) with
    | mk result s' =>
      cases result with
      | error f => exact congrArg Prod.fst (Work.runOn_bind_of_error htagList _)
      | ok tags => exact congrArg Prod.fst (Work.runOn_bind_of_ok htagList)
  · rw [if_neg fun hshown => htags hshown.1, if_neg htags]
    rfl

theorem answer_annotate {file full : Path} (hfile : w.files.resolve file = .ok full)
    (revision? : Option Text) :
    let t := r.annotationTask w s full revision?
    ((r.annotate w file revision?).runOn s).1 =
      (t.settle (w.outcome s.runs t.command.argv)).bind fun e =>
        annotationOf r.backend full.name (textLines e.stdout) := by
  obtain ⟨backend, root, config⟩ := r
  rw [annotate, Work.runOn_lookUp_bind_of_ok hfile]
  cases backend with
  | bitkeeper =>
    exact runOn_stream_task rfl rfl (fun _ => rfl) _ (fun _ _ _ => rfl)
      fun e s' hs' => runOn_unless_refused_bind _ w s' hs' _ _ _ _
  | git =>
    have hlift (x : Except Failure Annotation) (s' : Session) :
        ((liftM x : Work Annotation).runOn s').1 = x := by
      cases x <;> rfl
    refine runOn_stream_task rfl rfl (fun _ => rfl) _ (fun _ _ _ => rfl) fun e s' hs' => ?_
    refine (runOn_unless_refused_bind _ w s' hs' _ _ _ _).trans ?_
    rw [hlift]
    rfl

end Repository

end Annals

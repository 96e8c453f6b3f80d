import Annals.Proofs.Repository.Tasks

/-!
# Failures of the tool that are passed on

Of the requests to a repository, some come to an end only if the tool does (`Request.Propagates`): for
each there is one task (`Repository.task?`), and what keeps the task from an answer is what the request
fails with (`failure?_of_task`). So the caller is told of a tool that does not come to an end, and of one
that ends with a status that tells of an error along with all that it has to say, and never of a process
(`propagates_tool`). A command that is rejected is no failure of retrieval for them
(`not_told_of_unstarted`).
-/

namespace Annals

/-- The failure of an operation that fails. -/
def Failure.of? {α : Type} : Except Failure α → Option Failure
  | .error f => some f
  | .ok _ => none

/-- Whether a failure is reported as one of retrieval, or as a special case of it. -/
def Failure.IsRetrieval (f : Failure) : Prop :=
  ∃ kind, f.kind = .reported kind ∧ ReportKind.retrieval ∈ kind.lineage

/-- Whether a failure is one of retrieval, or else one that the user is not told of. It is no process in
either case. -/
def Failure.IsOfTask (f : Failure) : Prop :=
  f.IsRetrieval ∨ f.report? = none ∧ f.kind ≠ .process

namespace Failure

theorem isRetrieval_unfinished (task : Text) (cause : ProcessFailure) :
    (Failure.unfinished task cause).IsRetrieval :=
  ⟨.retrieval, rfl, List.mem_cons_self⟩

theorem isRetrieval_refused (task : Text) (argv : List Text) (code : Int) (stderr : Text) :
    (Failure.refused task argv code stderr).IsRetrieval :=
  ⟨.retrieval, rfl, List.mem_cons_self⟩

theorem IsMalformed.isRetrieval {f : Failure} (h : f.IsMalformed) : f.IsRetrieval := by
  obtain ⟨fault, rfl⟩ := h
  exact ⟨.malformedOutput, rfl, by decide⟩

theorem isOfTask_dateOutOfRange : Failure.dateOutOfRange.IsOfTask := .inr ⟨rfl, nofun⟩

theorem isOfTask_badPath (fault : PathFault) : (Failure.badPath fault).IsOfTask := by
  cases fault <;> exact .inr ⟨rfl, nofun⟩

theorem isOfTask_badCommand (fault : CommandFault) : (Failure.badCommand fault).IsOfTask := by
  cases fault <;> exact .inr ⟨rfl, nofun⟩

theorem not_isRetrieval_dateOutOfRange : ¬Failure.dateOutOfRange.IsRetrieval :=
  fun ⟨_, hkind, _⟩ => nomatch hkind

theorem not_isRetrieval_badCommand (fault : CommandFault) : ¬(Failure.badCommand fault).IsRetrieval := by
  rintro ⟨kind, hkind, -⟩
  cases fault <;> exact nomatch hkind

theorem IsOfTask.kind_ne_process {f : Failure} (h : f.IsOfTask) : f.kind ≠ .process := by
  rcases h with ⟨kind, hkind, -⟩ | ⟨-, hkind⟩
  · rw [hkind]
    exact nofun
  · exact hkind

end Failure

namespace Request

/-- Whether a request fails if the tool that is run for it does. -/
def Propagates (b : Backend) : Request → Prop
  | .history _ _ => True
  | .annotate _ _ => True
  | .parent _ => True
  | .branch _ => b = .git
  | .update => b = .git
  | _ => False

def IsAnnotation (request : Request) : Prop := ∃ file revision?, request = .annotate file revision?

end Request

/-- What a request tells of a task for the tool by failing, if it fails. -/
structure TellsOf (t : Task) (o : Outcome) (request : Request) (failure? : Option Failure) :
    Prop where
  /-- What is wrong with the command is not told as a failure of retrieval. -/
  rejected : ∀ fault, o = .rejected fault → failure? = some (.badCommand fault)
  unfinished : o.IsUnfinished t.limit? → ∃ message,
    failure?.bind Failure.report? = some { kind := .retrieval, message, exitCode := 1, stderr := [] }
  /-- The output does not matter, nor how much of it was read. -/
  refused : ∀ e, o.EndsWith t.limit? e → e.code ≠ 0 → ∃ message,
    failure?.bind Failure.report? =
      some { kind := .retrieval, message, exitCode := 1, stderr := Utf8.decode e.stderr } ∧
    commandLine t.command.argv ++ (" exited with " : Text) ++ Text.ofInt e.code <:+: message
  succeeded : ∀ e, o.EndsWith t.limit? e → e.code = 0 → ∀ f ∈ failure?, f.IsRetrieval →
    f.kind = .reported .malformedOutput ∧ request.IsAnnotation

theorem Task.names_refused (t : Task) (e : Exit) :
    commandLine t.command.argv ++ (" exited with " : Text) ++ Text.ofInt e.code <:+:
      (t.refused e).message := by
  have hmessage (task argv exited code words : Text) :
      argv ++ exited ++ code <:+: task ++ argv ++ exited ++ code ++ words :=
    ⟨task, words, by simp only [List.append_assoc]⟩
  exact hmessage _ _ _ _ _

namespace Repository

/-- The failure of a request, if it fails. -/
def failure? (r : Repository) (s : Session) (step : Step) : Option Failure :=
  match step.request with
  | .capabilities => none
  | .command => Failure.of? ((r.command step.world).runOn s).1
  | .availability => Failure.of? ((r.isAvailable step.world).runOn s).1
  | .version => Failure.of? ((r.version step.world).runOn s).1
  | .branch dir? => Failure.of? ((r.branch step.world dir?).runOn s).1
  | .parent dir? => Failure.of? ((r.parent step.world dir?).runOn s).1
  | .tracking file => Failure.of? ((r.isTracked step.world file).runOn s).1
  | .content dir name revision? => Failure.of? ((r.content step.world dir name revision?).runOn s).1
  | .history file since? => Failure.of? ((r.history step.world file since?).runOn s).1
  | .annotate file revision? => Failure.of? ((r.annotate step.world file revision?).runOn s).1
  | .tagList => Failure.of? ((r.tagList step.world).runOn s).1
  | .newTagList dir? => Failure.of? ((r.rebuildTagList step.world dir?).runOn s).1
  | .update => Failure.of? ((r.update step.world).runOn s).1

/-- The task that a request gives to the tool and fails with. A file whose path cannot be followed is
not annotated. -/
def task? (r : Repository) (s : Session) (step : Step) : Option Task :=
  match step.request with
  | .history file since? => some (r.historyTask step.world s file since?)
  | .annotate file revision? =>
    (step.world.files.resolve file).toOption.map fun full =>
      r.annotationTask step.world s full revision?
  | .parent dir? => some (r.parentTask step.world s dir?)
  | .branch dir? => if r.backend = .git then some (r.branchTask step.world s dir?) else none
  | .update => if r.backend = .git then some (r.updateTask step.world s) else none
  | _ => none

variable {r : Repository} {w : World} {s : Session} {request : Request} {t : Task}

/-! ## Failures in reading -/

theorem eq_dateOutOfRange_of_historyTask {file : Path} {since? : Option Text} {lines : List Text}
    {f : Failure} (h : (r.historyTask w s file since?).refusal? lines = some f) :
    f = .dateOutOfRange := by
  have hread : (r.backend.logFormat.readLog since? lines).failure? = some f := h
  rw [Backend.failure?_readLog] at hread
  split at hread
  · exact (Option.some.inj hread).symm
  · contradiction

theorem isMalformed_of_annotationOf {b : Backend} {filename : Text} {lines : List Text} {f : Failure}
    (h : annotationOf b filename lines = .error f) : f.IsMalformed := by
  cases b with
  | bitkeeper => exact nomatch h
  | git => exact Git.BlameReader.isMalformed_of_incomplete h

theorem isOfTask_of_annotationRefusal? {b : Backend} {filename : Text} {lines : List Text}
    {f : Failure} (h : annotationRefusal? b filename lines = some f) : f.IsOfTask := by
  have hfailure : b.annotationFailure? filename lines = some f := by
    cases b with
    | bitkeeper => exact h
    | git =>
      have hall : (Fed.all Git.BlameReader.feed { filename } lines).failure? = some f := h
      simp only [Backend.annotationFailure?, Git.BlameReader.failure?, hall]
  rcases b.isMalformed_or_hasLongNumber hfailure with hmalformed | ⟨n, rfl, -⟩
  · exact .inl hmalformed.isRetrieval
  · exact .inr ⟨rfl, by simp [Failure.kind]⟩

/-! ## What a request fails with -/

/-- A request that fails with the tool gives it a task, unless there is no file to annotate. -/
theorem exists_task?_or_badPath (h : request.Propagates r.backend) :
    (∃ t, r.task? s ⟨w, request⟩ = some t) ∨
      ∃ fault, r.failure? s ⟨w, request⟩ = some (.badPath fault) := by
  cases request with
  | history file since? => exact .inl ⟨_, rfl⟩
  | parent dir? => exact .inl ⟨_, rfl⟩
  | branch dir? => exact .inl ⟨_, if_pos h⟩
  | update => exact .inl ⟨_, if_pos h⟩
  | annotate file revision? =>
    cases hfile : w.files.resolve file with
    | ok full =>
      refine .inl ⟨r.annotationTask w s full revision?, ?_⟩
      simp only [task?, hfile]
      rfl
    | error fault =>
      refine .inr ⟨fault, ?_⟩
      simp only [failure?]
      rw [annotate, Work.runOn_lookUp_bind_of_error hfile]
      rfl
  | _ => exact h.elim

theorem isOfTask_of_refusal? (h : r.task? s ⟨w, request⟩ = some t) {lines : List Text}
    {f : Failure} (hf : t.refusal? lines = some f) : f.IsOfTask := by
  cases request with
  | history file since? =>
    obtain rfl := Option.some.inj h
    rw [eq_dateOutOfRange_of_historyTask hf]
    exact Failure.isOfTask_dateOutOfRange
  | annotate file revision? =>
    obtain ⟨full, -, rfl⟩ := Option.map_eq_some_iff.mp h
    exact isOfTask_of_annotationRefusal? hf
  | parent dir? =>
    obtain rfl := Option.some.inj h
    exact nomatch hf
  | branch dir? =>
    obtain ⟨-, hsome⟩ := Option.ite_none_right_eq_some.mp h
    obtain rfl := Option.some.inj hsome
    exact nomatch hf
  | update =>
    obtain ⟨-, hsome⟩ := Option.ite_none_right_eq_some.mp h
    obtain rfl := Option.some.inj hsome
    exact nomatch hf
  | _ => exact nomatch h

theorem of?_eq_some_iff {α : Type} {x : Except Failure α} {f : Failure} :
    Failure.of? x = some f ↔ x = .error f := by
  cases x <;> simp [Failure.of?]

/-- What is made of an exit fails with what keeps it from the exit, and else only as it is made. -/
theorem of?_bind {α : Type} {P : Failure → Prop} (x : Except Failure Exit)
    {answer : Exit → Except Failure α} (h : ∀ e f, answer e = .error f → P f) :
    (∀ f, x = .error f → Failure.of? (x.bind answer) = some f) ∧
      ∀ e, x = .ok e → ∀ f ∈ Failure.of? (x.bind answer), P f := by
  refine ⟨?_, ?_⟩
  · rintro f rfl
    rfl
  · rintro e rfl f hf
    exact h e f (of?_eq_some_iff.mp hf)

/-- A request fails with what keeps its task from an answer. With an answer it may still fail: for the tags
of a history, of which a date is out of range or which cannot be listed, or at the end of an annotation. -/
theorem failure?_of_task (h : r.task? s ⟨w, request⟩ = some t) :
    let settled := t.settle (w.outcome s.runs t.command.argv)
    (∀ f, settled = .error f → r.failure? s ⟨w, request⟩ = some f) ∧
      ∀ e, settled = .ok e → ∀ f ∈ r.failure? s ⟨w, request⟩,
        f = .dateOutOfRange ∨ (∃ fault, f = .badCommand fault) ∨
          f.IsMalformed ∧ request.IsAnnotation := by
  intro settled
  cases request with
  | history file since? =>
    obtain rfl := Option.some.inj h
    refine ⟨fun f hf => ?_, fun e he f hf => ?_⟩
    · simp only [failure?, runOn_history_of_error hf]
      rfl
    · simp only [failure?, answer_history he, Option.mem_def, of?_eq_some_iff] at hf
      split at hf
      · cases hlist : ((r.tagList w).runOn (r.logged w s file since?)).1 with
        | error f' =>
          rw [hlist] at hf
          obtain rfl := Except.error.inj hf
          rcases (r.of_tagList_eq_error w _ hlist).2 with ⟨hdate, -⟩ | ⟨fault, hfault, -⟩
          · exact .inl hdate
          · exact .inr (.inl ⟨fault, hfault⟩)
        | ok tags =>
          rw [hlist] at hf
          contradiction
      · contradiction
  | annotate file revision? =>
    obtain ⟨full, hfull, rfl⟩ := Option.map_eq_some_iff.mp h
    have hfile : w.files.resolve file = .ok full := by
      cases hfound : w.files.resolve file with
      | ok found =>
        rw [hfound] at hfull
        rw [Option.some.inj hfull]
      | error fault =>
        rw [hfound] at hfull
        exact nomatch hfull
    simp only [failure?, answer_annotate hfile]
    exact of?_bind _ fun e f hf => .inr (.inr ⟨isMalformed_of_annotationOf hf, file, revision?, rfl⟩)
  | parent dir? =>
    obtain rfl := Option.some.inj h
    simp only [failure?, answer_parent]
    exact of?_bind _ fun e f hf => nomatch hf
  | branch dir? =>
    obtain ⟨hbackend, hsome⟩ := Option.ite_none_right_eq_some.mp h
    obtain rfl := Option.some.inj hsome
    simp only [failure?, answer_branch hbackend]
    exact of?_bind _ fun e f hf => nomatch hf
  | update =>
    obtain ⟨hbackend, hsome⟩ := Option.ite_none_right_eq_some.mp h
    obtain rfl := Option.some.inj hsome
    simp only [failure?, answer_update hbackend]
    exact of?_bind _ fun e f hf => nomatch hf
  | _ => exact nomatch h

/-- What a request fails with that fails with the tool. -/
theorem isOfTask_failure? (h : request.Propagates r.backend) :
    ∀ f ∈ r.failure? s ⟨w, request⟩, f.IsOfTask := by
  intro f hf
  rcases exists_task?_or_badPath (w := w) (s := s) h with ⟨t, ht⟩ | ⟨fault, hfault⟩
  · obtain ⟨herror, hok⟩ := failure?_of_task ht
    cases hsettle : t.settle (w.outcome s.runs t.command.argv) with
    | error f' =>
      have hsame : r.failure? s ⟨w, request⟩ = some f' := herror f' hsettle
      obtain rfl : f' = f := Option.some.inj (hsame.symm.trans hf)
      rcases Task.of_settle_eq_error hsettle with
        ⟨e, -, hrefused⟩ | ⟨fault, rfl, -⟩ | ⟨cause, rfl⟩ | ⟨e, rfl⟩
      · exact isOfTask_of_refusal? ht hrefused
      · exact Failure.isOfTask_badCommand fault
      · exact .inl (Failure.isRetrieval_unfinished _ cause)
      · exact .inl (Failure.isRetrieval_refused _ _ _ _)
    | ok e =>
      rcases hok e hsettle f hf with rfl | ⟨fault, rfl⟩ | ⟨hmalformed, -⟩
      · exact Failure.isOfTask_dateOutOfRange
      · exact Failure.isOfTask_badCommand fault
      · exact .inl hmalformed.isRetrieval
  · obtain rfl : Failure.badPath fault = f := Option.some.inj (hfault.symm.trans hf)
    exact Failure.isOfTask_badPath fault

theorem kind_failure?_ne_process (h : request.Propagates r.backend) :
    ∀ f ∈ r.failure? s ⟨w, request⟩, f.kind ≠ .process :=
  fun f hf => (isOfTask_failure? h f hf).kind_ne_process

/-- What a request tells of its task, unless a line of the output is refused, or a status that tells of an
error is taken for an answer. -/
theorem failure?_tellsOf (h : r.task? s ⟨w, request⟩ = some t) :
    let o := w.outcome s.runs t.command.argv
    t.Accepts o → (∀ e, o.EndsWith t.limit? e → e.code ≠ 0 → ¬t.answers e) →
      TellsOf t o request (r.failure? s ⟨w, request⟩) := by
  intro o hlines hanswers
  obtain ⟨herror, hok⟩ := failure?_of_task h
  refine ⟨fun fault hrejected => ?_, fun hend => ?_, fun e hend hcode => ?_,
    fun e hend hcode f hf hretrieval => ?_⟩
  · exact herror _ ((congrArg t.settle hrejected).trans (t.settle_rejected fault))
  · obtain ⟨cause, hcause⟩ := Task.settle_of_isUnfinished hlines hend
    rw [herror _ hcause]
    exact ⟨_, rfl⟩
  · have hsettle : t.settle o = .error (t.refused e) := by
      rw [Task.settle_of_endsWith hlines hend, if_neg (hanswers e hend hcode)]
    rw [herror _ hsettle]
    exact ⟨_, rfl, t.names_refused e⟩
  · have hsettle : t.settle o = .ok e := by
      rw [Task.settle_of_endsWith hlines hend, if_pos (t.answers_of_success e hcode)]
    rcases hok e hsettle f hf with rfl | ⟨fault, rfl⟩ | ⟨⟨fault, rfl⟩, hannotation⟩
    · exact absurd hretrieval Failure.not_isRetrieval_dateOutOfRange
    · exact absurd hretrieval (Failure.not_isRetrieval_badCommand fault)
    · exact ⟨rfl, hannotation⟩

/-- A request that fails with the tool tells of it as a failure of retrieval, with all that the tool has to
say if it ended, and tells of no failure of retrieval if it succeeded, but of an annotation that is
malformed. It never fails as a process does; but if its command is rejected, it fails with that. -/
theorem propagates_tool (r : Repository) (w : World) (s : Session) (request : Request)
    (h : request.Propagates r.backend) :
    (∀ f ∈ r.failure? s ⟨w, request⟩, f.kind ≠ .process) ∧
    ∀ t, r.task? s ⟨w, request⟩ = some t →
      let o := w.outcome s.runs t.command.argv
      t.Accepts o → (∀ e, o.EndsWith t.limit? e → e.code ≠ 0 → ¬t.answers e) →
        TellsOf t o request (r.failure? s ⟨w, request⟩) :=
  ⟨kind_failure?_ne_process h, fun _ ht => failure?_tellsOf ht⟩

/-- A log that breaks off after a record. -/
theorem propagates_tool_of_broken_log :
    let log : Text := "D f\t1.2\t2017-03-01 00:00:00 GMT+00:00\tjas\t1.40\n"
    let w : World := { outcome := fun _ _ => .exits ⟨3, Utf8.encode log, Utf8.encode " locked\n"⟩ }
    let r : Repository := { backend := .bitkeeper, root := .root }
    let request : Request := .history (.ofText "/f") none
    request.Propagates r.backend ∧ ∃ message,
      (r.failure? {} ⟨w, request⟩).bind Failure.report? =
        some { kind := .retrieval, message, exitCode := 1, stderr := " locked\n" } := by
  intro log w r request
  obtain ⟨-, htells⟩ := propagates_tool r w {} request trivial
  let t : Task := r.historyTask w {} (.ofText "/f") none
  have haccepts : t.Accepts (w.outcome [] t.command.argv) := by
    rintro e (h | h)
    · obtain rfl := Outcome.exits.inj h
      decide +kernel
    · exact nomatch h
  have hanswers : ∀ e, (w.outcome [] t.command.argv).EndsWith t.limit? e → e.code ≠ 0 →
      ¬t.answers e := fun e _ hcode hanswer => hcode (of_decide_eq_true hanswer)
  obtain ⟨message, hmessage, -⟩ := (htells t rfl haccepts hanswers).refused
    ⟨3, Utf8.encode log, Utf8.encode " locked\n"⟩ (.inl rfl) (by decide)
  have hstderr : Utf8.decode (Utf8.encode " locked\n") = " locked\n" := Utf8.decode_encode _
  rw [hstderr] at hmessage
  exact ⟨trivial, message, hmessage⟩

/-- The log of a file whose name holds a NUL is not started, which is not told as a failure of retrieval. -/
theorem not_told_of_unstarted :
    ¬∀ (r : Repository) (w : World) (s : Session) (request : Request) (t : Task),
      request.Propagates r.backend → w.IsLawful (r.config.timeout.map .ofInt) →
      r.task? s ⟨w, request⟩ = some t → (∀ e, ¬(w.outcome s.runs t.command.argv).Prints e) →
        ∃ f, r.failure? s ⟨w, request⟩ = some f ∧ f.IsRetrieval := by
  intro h
  let r : Repository := { backend := .git, root := .root }
  let w : World := .facing (r.config.timeout.map .ofInt) (fun _ => .streamed) [] fun _ => .exits {}
  let file : Path := .ofText "/a\x00b"
  let t : Task := r.historyTask w {} file none
  have hlawful : w.IsLawful (r.config.timeout.map .ofInt) := World.isLawful_facing fun _ => nofun
  have hrejected : w.outcome [] t.command.argv = .rejected .holdsNul := by rfl
  have hunstarted : ∀ e, ¬(w.outcome [] t.command.argv).Prints e := by
    rw [hrejected]
    exact fun e he => he.elim nofun nofun
  obtain ⟨f, hf, hretrieval⟩ := h r w {} (.history file none) t trivial hlawful rfl hunstarted
  have hsettle : t.settle (w.outcome [] t.command.argv) = .error (.badCommand .holdsNul) := by
    rw [hrejected, t.settle_rejected]
  have htask : r.task? {} ⟨w, .history file none⟩ = some t := rfl
  obtain ⟨herror, -⟩ := failure?_of_task htask
  rw [herror _ hsettle] at hf
  obtain rfl := Option.some.inj hf
  exact Failure.not_isRetrieval_badCommand .holdsNul hretrieval

end Repository

end Annals

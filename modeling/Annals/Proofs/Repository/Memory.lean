import Annals.Proofs.Repository.Probing

/-!
# What a session remembers

Over any requests in any surroundings, the executable is found out once, the state of the tool once it can
be asked, and the list of tags is the one made last (`session_memoised`). The invariant behind it is
`Remembers`: it relates the cells of a session to its runs and to what the listings of tags gave. One
request preserves it (`Remembers.after`), and so does a whole session (`remembers_session`).

That the tool cannot be asked is not remembered, so that it may be asked again (`not_asked_once`).
-/

namespace Annals

theorem listings_append (b : Backend) (w : World) (runs runs' : List Run) (earlier : List Run) :
    listings b w earlier (runs ++ runs') =
      listings b w earlier runs ++ listings b w (earlier ++ runs) runs' := by
  induction runs generalizing earlier with
  | nil => simp [listings]
  | cons run runs ih =>
    simp only [List.cons_append, listings, ih, List.append_assoc, List.nil_append]
    split <;> rfl

theorem listings_eq_nil {b : Backend} {w : World} {runs : List Run}
    (h : ∀ run ∈ runs, run.listsTags b = false) (earlier : List Run) :
    listings b w earlier runs = [] := by
  induction runs generalizing earlier with
  | nil => rfl
  | cons run runs ih =>
    obtain ⟨hrun, hruns⟩ := List.forall_mem_cons.mp h
    simp [listings, hrun, ih hruns]

theorem completed_concat (results : List (Except Failure (List Tag)))
    (result : Except Failure (List Tag)) :
    completed (results ++ [result]) = completed results ++ result.toOption.toList := by
  cases result <;> simp [completed, Except.toOption]

namespace Repository

variable {r : Repository} {w : World} {given : List Text} {s s' s'' : Session}
  {result : Except Failure (List Tag)}

/-! ## What is never forgotten -/

/-- The changes of a session in one world, as far as they can be relied on: the executable is found out
with the first run, the state of the tool stays as it is, and runs are only added. -/
structure Extends (r : Repository) (w : World) (s s' : Session) : Prop where
  command : s'.command = s.command ∧ s'.runs = s.runs ∨
    s'.command.value? = some (r.executable w s) ∧ s'.runs ≠ []
  status : ∀ status, s.status.value? = some status → s'.status.value? = some status

namespace Extends

theorem refl (s : Session) : Extends r w s s := ⟨.inl ⟨rfl, rfl⟩, fun _ h => h⟩

theorem trans (h : Extends r w s s') (h' : Extends r w s' s'') : Extends r w s s'' := by
  refine ⟨?_, fun status hs => h'.status status (h.status status hs)⟩
  rcases h.command with ⟨hcommand, hruns⟩ | ⟨hcommand, hruns⟩
  · have hexecutable : r.executable w s' = r.executable w s := by rw [executable, hcommand]; rfl
    rcases h'.command with ⟨hcommand', hruns'⟩ | hcommand'
    · exact .inl ⟨hcommand'.trans hcommand, hruns'.trans hruns⟩
    · exact .inr (hexecutable ▸ hcommand')
  · rcases h'.command with ⟨hcommand', hruns'⟩ | ⟨hcommand', hruns'⟩
    · exact .inr ⟨by rw [hcommand', hcommand], by rw [hruns']; exact hruns⟩
    · exact .inr ⟨by rw [hcommand', executable_of_some hcommand], hruns'⟩

end Extends

theorem Quiet.extends (h : Quiet r w given s s') : Extends r w s s' := by
  induction h with
  | refl => exact .refl _
  | note notes _ ih => exact ⟨ih.command, ih.status⟩
  | run run notes _ _ _ ih => exact ih.trans ⟨.inr ⟨rfl, by simp⟩, fun _ h => h⟩
  | probe notes _ hunknown ih =>
    refine ih.trans ⟨.inr ⟨rfl, by simp⟩, fun status h => ?_⟩
    rw [hunknown] at h
    contradiction

theorem Lists.extends (h : Lists r w s result s') : Extends r w s s' := by
  obtain ⟨status, dir, run, notes, -, -, -, rfl⟩ := h
  exact ⟨.inr ⟨rfl, by simp⟩, fun _ h => h⟩

theorem after_command (s : Session) (w : World) : r.after s ⟨w, .command⟩ = r.knowing w s := by
  rw [after, runOn_command]

theorem extends_after (s : Session) {step : Step} (h : step.request ≠ .command) :
    Extends r step.world s (r.after s step) := by
  cases r.handled_after s step with
  | named hcommand => contradiction
  | quiet hquiet => exact hquiet.extends
  | listed s₁ result hquiet hlists => exact hquiet.extends.trans hlists.extends

/-- The executable and the state of the tool, once they are found out. -/
structure Keeps (s s' : Session) : Prop where
  command : ∀ tool, s.command.value? = some tool → s'.command.value? = some tool
  status : ∀ status, s.status.value? = some status → s'.status.value? = some status

theorem keeps_after (s : Session) (step : Step) : Keeps s (r.after s step) := by
  by_cases h : step.request = .command
  · obtain ⟨w, request⟩ := step
    obtain rfl : request = .command := h
    rw [after_command]
    refine ⟨fun tool htool => ?_, fun status hstatus => hstatus⟩
    rw [knowing_command, executable_of_some htool]
  · -- an executable that is known already is the one that runs use
    have hextends := extends_after (r := r) s h
    refine ⟨fun tool htool => ?_, hextends.status⟩
    rcases hextends.command with ⟨hcommand, -⟩ | ⟨hcommand, -⟩
    · rw [hcommand, htool]
    · rw [hcommand, executable_of_some htool]

theorem keeps_foldl (steps : List Step) (s : Session) : Keeps s (steps.foldl r.after s) := by
  induction steps generalizing s with
  | nil => exact ⟨fun _ h => h, fun _ h => h⟩
  | cons step steps ih =>
    have hstep := keeps_after (r := r) s step
    have hrest := ih (r.after s step)
    exact ⟨fun tool h => hrest.command tool (hstep.command tool h),
      fun status h => hrest.status status (hstep.status status h)⟩

theorem keeps_session {earlier steps : List Step} (h : earlier <+: steps) :
    Keeps (r.session earlier) (r.session steps) := by
  obtain ⟨later, rfl⟩ := h
  rw [session_append]
  exact keeps_foldl later _

/-- Without a run and without being asked for, the executable is not found out. -/
theorem command_session_eq_none {steps : List Step} (hasked : ∀ step ∈ steps, step.request ≠ .command)
    (hruns : (r.session steps).runs = []) : (r.session steps).command.value? = none := by
  induction steps using List.reverseRecOn with
  | nil => rfl
  | append_singleton steps step ih =>
    rw [session_concat] at hruns ⊢
    have hextends := extends_after (r := r) (r.session steps)
      (hasked step (List.mem_append_right _ List.mem_cons_self))
    rcases hextends.command with ⟨hcommand, hsame⟩ | ⟨-, hnonempty⟩
    · rw [hcommand]
      exact ih (fun e he => hasked e (List.mem_append_left _ he)) (hsame.symm.trans hruns)
    · exact absurd hruns hnonempty

/-! ## What the cells say about the runs -/

theorem listsTags_of_arguments {b : Backend} {run : Run} {args : List Text} (h : run.arguments = args) :
    run.listsTags b = decide (args.head? = some (tagWord b)) := by
  rw [Run.listsTags, h]

theorem versionRun_listsTags : (r.versionRun w s).listsTags r.backend = false := by
  rw [listsTags_of_arguments rfl]
  cases r.backend <;> rfl

/-- A session, with the results of the listings of tags made in it: all runs are of the executable that
was found out; all listings are in the format for the state of the tool; and the list of tags is the one
completed last. -/
structure Remembers (r : Repository) (s : Session) (results : List (Except Failure (List Tag))) :
    Prop where
  tool : ∀ run ∈ s.runs, s.command.value?.isSome ∧ run.command.argv.head? = s.command.value?
  formats : ∀ run ∈ s.runs, run.listsTags r.backend = true →
    ∃ status, s.status.value? = some status ∧ run.arguments = tagArgs r.backend (r.tagFormat status)
  tags : s.tags.value? = (completed results).getLast?

namespace Remembers

variable {results : List (Except Failure (List Tag))}

theorem empty : Remembers r {} [] := ⟨nofun, nofun, rfl⟩

theorem knowing (h : Remembers r s results) : Remembers r (r.knowing w s) results := by
  refine ⟨fun run hmem => ⟨rfl, ?_⟩, h.formats, h.tags⟩
  obtain ⟨hknown, htool⟩ := h.tool run hmem
  obtain ⟨tool, hsome⟩ := Option.isSome_iff_exists.mp hknown
  rw [htool, hsome, knowing_command, executable_of_some hsome]

/-- A further run of the executable, which has been found out by then. -/
theorem tool_run (h : Remembers r s results) {run : Run} {args : List Text}
    (hargv : run.command.argv = r.executable w s :: args) :
    ∀ run' ∈ s.runs ++ [run], run'.command.argv.head? = some (r.executable w s) := by
  intro run' hmem
  rcases List.mem_append.mp hmem with hmem | hmem
  · exact (h.knowing.tool run' hmem).2
  · rw [List.mem_singleton.mp hmem, hargv]
    rfl

theorem formats_run (h : Remembers r s results) {run : Run} (hrun : run.listsTags r.backend = false) :
    ∀ run' ∈ s.runs ++ [run], run'.listsTags r.backend = true →
      ∃ status, s.status.value? = some status ∧
        run'.arguments = tagArgs r.backend (r.tagFormat status) := by
  intro run' hmem hlists
  rcases List.mem_append.mp hmem with hmem | hmem
  · exact h.formats run' hmem hlists
  · rw [List.mem_singleton.mp hmem, hrun] at hlists
    contradiction

theorem quiet (h : Remembers r s results) (hquiet : Quiet r w given s s') : Remembers r s' results := by
  induction hquiet with
  | refl => exact h
  | note notes _ ih => exact ⟨ih.tool, ih.formats, ih.tags⟩
  | @run s' args run notes _ hargv hplain ih =>
    have harguments : run.arguments = args := by rw [Run.arguments, hargv]; rfl
    have hlists : run.listsTags r.backend = false := by
      simp [listsTags_of_arguments harguments, hplain.not_tags]
    exact ⟨fun run' hmem => ⟨rfl, ih.tool_run hargv run' hmem⟩, ih.formats_run hlists, ih.tags⟩
  | @probe s' notes _ hunknown ih =>
    refine ⟨fun run' hmem => ⟨rfl, ih.tool_run rfl run' hmem⟩, fun run' hmem hlists => ?_, ih.tags⟩
    -- nothing was known of the tool, so no tags had been listed
    obtain ⟨status, hstatus, -⟩ := ih.formats_run versionRun_listsTags run' hmem hlists
    rw [hunknown] at hstatus
    contradiction

theorem lists (h : Remembers r s results) (hlists : Lists r w s result s') :
    Remembers r s' (results ++ [result]) := by
  obtain ⟨status, dir, run, notes, hknown, hcommand, -, rfl⟩ := hlists
  have hargv : run.command.argv = r.executable w s :: tagArgs r.backend (r.tagFormat status) := by
    rw [hcommand]
    rfl
  have harguments : run.arguments = tagArgs r.backend (r.tagFormat status) := by
    rw [Run.arguments, hargv]
    rfl
  refine ⟨fun run' hmem => ⟨rfl, h.tool_run hargv run' hmem⟩, fun run' hmem hlists => ?_, ?_⟩
  · rcases List.mem_append.mp hmem with hmem | hmem
    · exact h.formats run' hmem hlists
    · rw [List.mem_singleton.mp hmem]
      exact ⟨status, hknown, harguments⟩
  · rw [completed_concat]
    cases result with
    | error f => simpa [cellAfter, Except.toOption] using h.tags
    | ok tags => simp [cellAfter, Except.toOption]

end Remembers

/-! ## The runs of a request -/

/-- The runs of quiet work list no tags, and have the flag for versions only as what was given. -/
theorem Quiet.runs (h : Quiet r w given s s') :
    ∃ runs, s'.runs = s.runs ++ runs ∧ ∀ run ∈ runs, run.listsTags r.backend = false ∧
      (versionFlag ∈ run.arguments → run.asksVersion = true ∨ versionFlag ∈ given) := by
  induction h with
  | refl => exact ⟨[], by simp, nofun⟩
  | note notes _ ih => exact ih
  | @run s' args run notes _ hargv hplain ih =>
    obtain ⟨runs, hruns, hall⟩ := ih
    have harguments : run.arguments = args := by rw [Run.arguments, hargv]; rfl
    refine ⟨runs ++ [run], by simp [hruns], List.forall_mem_append.mpr ⟨hall, ?_⟩⟩
    refine List.forall_mem_singleton.mpr ⟨?_, fun hflag => .inr (hplain.mem_given ?_)⟩
    · simp [listsTags_of_arguments harguments, hplain.not_tags]
    · rwa [harguments] at hflag
  | @probe s' notes _ hunknown ih =>
    obtain ⟨runs, hruns, hall⟩ := ih
    refine ⟨runs ++ [r.versionRun w s'], by simp [hruns], List.forall_mem_append.mpr ⟨hall, ?_⟩⟩
    exact List.forall_mem_singleton.mpr ⟨versionRun_listsTags, fun _ => .inl versionRun_asksVersion⟩

theorem versionFlag_not_mem_tagArgs (r : Repository) (status : ToolStatus) :
    versionFlag ∉ tagArgs r.backend (r.tagFormat status) := by
  unfold tagFormat ToolStatus.select
  split <;> cases r.backend <;> decide

/-- A listing is one run. -/
theorem Lists.runs (h : Lists r w s result s') :
    ∃ run : Run, s'.runs = s.runs ++ [run] ∧ run.listsTags r.backend = true ∧
      versionFlag ∉ run.arguments ∧ listings r.backend w s.runs [run] = [result] := by
  obtain ⟨status, dir, run, notes, hknown, hcommand, hresult, rfl⟩ := h
  have harguments : run.arguments = tagArgs r.backend (r.tagFormat status) := by
    rw [Run.arguments, hcommand]
    rfl
  have hlists : run.listsTags r.backend = true := by
    simp [listsTags_of_arguments harguments, head?_tagArgs]
  refine ⟨run, rfl, hlists, ?_, ?_⟩
  · rw [harguments]
    exact versionFlag_not_mem_tagArgs r status
  · simp [listings, hlists, hresult]

theorem listingsIn_of_quiet {step : Step} (h : Quiet r step.world given s (r.after s step)) :
    r.listingsIn s step = [] ∧ (r.newRuns s step).countP (Run.listsTags r.backend) = 0 := by
  obtain ⟨runs, hruns, hall⟩ := h.runs
  have hquiet : ∀ run ∈ runs, run.listsTags r.backend = false := fun run hmem => (hall run hmem).1
  rw [listingsIn, newRuns_eq hruns]
  exact ⟨listings_eq_nil hquiet _, List.countP_eq_zero.mpr fun run hmem => by simp [hquiet run hmem]⟩

theorem listingsIn_of_lists {step : Step} {s₁ : Session} (hquiet : Quiet r step.world given s s₁)
    (hlists : Lists r step.world s₁ result (r.after s step)) :
    r.listingsIn s step = [result] ∧ (r.newRuns s step).countP (Run.listsTags r.backend) = 1 := by
  obtain ⟨runs, hruns, hall⟩ := hquiet.runs
  obtain ⟨run, hrun, hlists, -, hresult⟩ := hlists.runs
  have hquiet : ∀ run ∈ runs, run.listsTags r.backend = false := fun run hmem => (hall run hmem).1
  have hafter : (r.after s step).runs = s.runs ++ (runs ++ [run]) := by
    rw [hrun, hruns, List.append_assoc]
  have hnone : runs.countP (Run.listsTags r.backend) = 0 :=
    List.countP_eq_zero.mpr fun run hmem => by simp [hquiet run hmem]
  rw [listingsIn, newRuns_eq hafter, listings_append, listings_eq_nil hquiet, ← hruns, hresult]
  exact ⟨rfl, by simp [List.countP_append, hnone, hlists]⟩

theorem newRuns_of_knowing {step : Step} (h : r.after s step = r.knowing step.world s) :
    r.newRuns s step = [] :=
  newRuns_eq (by simp [h, knowing])

/-- One request preserves what a session remembers. -/
theorem Remembers.after {results : List (Except Failure (List Tag))} (h : Remembers r s results)
    (step : Step) : Remembers r (r.after s step) (results ++ r.listingsIn s step) := by
  cases r.handled_after s step with
  | named _ hknowing =>
    rw [listingsIn, newRuns_of_knowing hknowing, hknowing, listings, List.append_nil]
    exact h.knowing
  | quiet hquiet =>
    rw [(listingsIn_of_quiet hquiet).1, List.append_nil]
    exact h.quiet hquiet
  | listed s₁ result hquiet hlists =>
    rw [(listingsIn_of_lists hquiet hlists).1]
    exact (h.quiet hquiet).lists hlists

theorem remembers_foldl (steps : List Step) {s : Session} {results : List (Except Failure (List Tag))}
    (h : Remembers r s results) :
    Remembers r (steps.foldl r.after s) (results ++ r.listingsOf s steps) := by
  induction steps generalizing s results with
  | nil => simpa [listingsOf] using h
  | cons step steps ih =>
    rw [listingsOf, ← List.append_assoc]
    exact ih (h.after step)

theorem remembers_session (r : Repository) (steps : List Step) :
    Remembers r (r.session steps) (r.listingsOf {} steps) :=
  remembers_foldl steps .empty

/-! ## Whole sessions -/

/-- Whether a step is the first use of the tool: it makes the first run, or is the first to ask for the
executable. -/
def IsFirstUse (r : Repository) (earlier : List Step) (step : Step) : Prop :=
  (r.session earlier).runs = [] ∧ (∀ e ∈ earlier, e.request ≠ .command) ∧
    (r.newRuns (r.session earlier) step ≠ [] ∨ step.request = .command)

/-- Whether a request is answered as is said, or fails since the tool cannot be asked for its version. -/
def AnsweredUnlessRejected {α : Type} (r : Repository) (s : Session) (step : Step)
    (result : Except Failure α) (answer : α) : Prop :=
  result = .ok answer ∨ ∃ run fault, (run, .rejected fault) ∈ r.probesIn s step ∧
    result = .error (.badCommand fault)

/-- What a session finds out once and keeps, as seen in its runs and answers. -/
structure Memoised (r : Repository) (steps : List Step) : Prop where
  /-- The tool is asked for its version again only if it could not be asked. -/
  asked_again : (r.probesOf {} steps).Pairwise fun probe _ => probe.2.IsRejected
  asked : (r.session steps).runs.countP Run.asksVersion = (r.probesOf {} steps).length
  asked_once : (∀ probe ∈ r.probesOf {} steps, ¬probe.2.IsRejected) →
    (r.session steps).runs.countP Run.asksVersion ≤ 1
  /-- The flag for versions is handed on otherwise if it is the name of a file or a revision. -/
  asked_or_given : ∀ earlier step, earlier ++ [step] <+: steps →
    ∀ run ∈ r.newRuns (r.session earlier) step,
      versionFlag ∈ run.arguments → run.asksVersion = true ∨ versionFlag ∈ step.given
  /-- There is no answer only if the tool cannot be asked just then. -/
  status : ∃ status : ToolStatus,
    (∀ earlier w, earlier ++ [⟨w, .availability⟩] <+: steps →
      r.AnsweredUnlessRejected (r.session earlier) ⟨w, .availability⟩
        ((r.isAvailable w).runOn (r.session earlier)).1 status.working) ∧
    (∀ earlier w, earlier ++ [⟨w, .version⟩] <+: steps →
      r.AnsweredUnlessRejected (r.session earlier) ⟨w, .version⟩
        ((r.version w).runOn (r.session earlier)).1 status.version) ∧
    ∀ run ∈ (r.session steps).runs, run.listsTags r.backend = true →
      run.arguments = tagArgs r.backend (r.tagFormat status)
  tool : ∃ tool : Text,
    (∀ run ∈ (r.session steps).runs, run.command.argv.head? = some tool) ∧
    (∀ earlier w, earlier ++ [⟨w, .command⟩] <+: steps →
      ((r.command w).runOn (r.session earlier)).1 = .ok tool) ∧
    ∀ earlier step, earlier ++ [step] <+: steps → r.IsFirstUse earlier step →
      tool = r.config.commandFor step.world.environment r.backend.kind r.backend.usualCommand
  rebuilt : ∀ earlier w dir?, earlier ++ [⟨w, .newTagList dir?⟩] <+: steps →
    let count := (r.newRuns (r.session earlier) ⟨w, .newTagList dir?⟩).countP (Run.listsTags r.backend)
    count = 1 ∧ (∀ probe ∈ r.probesIn (r.session earlier) ⟨w, .newTagList dir?⟩, ¬probe.2.IsRejected) ∨
    count = 0 ∧ ∃ probe ∈ r.probesIn (r.session earlier) ⟨w, .newTagList dir?⟩, probe.2.IsRejected
  listed : ∀ earlier step, earlier ++ [step] <+: steps →
    (∀ dir?, step.request ≠ .newTagList dir?) →
      (r.newRuns (r.session earlier) step).countP (Run.listsTags r.backend) = 0 ∨
      (r.newRuns (r.session earlier) step).countP (Run.listsTags r.backend) = 1 ∧
        r.wantsTags step.request = true ∧ completed (r.listingsOf {} earlier) = []
  /-- The answer is the list completed last, the one of this very request included; there is no answer
  only if no list has been completed. -/
  answered : ∀ earlier w, earlier ++ [⟨w, .tagList⟩] <+: steps →
    ((r.tagList w).runOn (r.session earlier)).1.toOption =
      (completed (r.listingsOf {} (earlier ++ [⟨w, .tagList⟩]))).getLast?

theorem asksVersion_or_mem_given (s : Session) (step : Step) : ∀ run ∈ r.newRuns s step,
    versionFlag ∈ run.arguments → run.asksVersion = true ∨ versionFlag ∈ step.given := by
  intro run hmem hflag
  cases r.handled_after s step with
  | named _ hknowing =>
    rw [newRuns_of_knowing hknowing] at hmem
    contradiction
  | quiet hquiet =>
    obtain ⟨runs, hruns, hall⟩ := hquiet.runs
    rw [newRuns_eq hruns] at hmem
    exact (hall run hmem).2 hflag
  | listed s₁ result hquiet hlists =>
    obtain ⟨runs, hruns, hall⟩ := hquiet.runs
    obtain ⟨last, hlast, -, hnot, -⟩ := hlists.runs
    rw [newRuns_eq (by rw [hlast, hruns, List.append_assoc])] at hmem
    rcases List.mem_append.mp hmem with hmem | hmem
    · exact (hall run hmem).2 hflag
    · rw [List.mem_singleton.mp hmem] at hflag
      contradiction

theorem countP_listsTags (s : Session) (step : Step) :
    let count := (r.newRuns s step).countP (Run.listsTags r.backend)
    count = 0 ∧ (∀ dir?, step.request = .newTagList dir? →
      ∃ fault, r.knownStatus step.world s = .error fault) ∨
      count = 1 ∧ r.wantsTags step.request = true ∧
        ((∃ dir?, step.request = .newTagList dir?) ∨ s.tags.value? = none) ∧
        ∀ dir?, step.request = .newTagList dir? → ∃ status, r.knownStatus step.world s = .ok status := by
  cases r.handled_after s step with
  | named hcommand hknowing =>
    rw [newRuns_of_knowing hknowing, hcommand]
    exact .inl ⟨rfl, nofun⟩
  | quiet hquiet hother => exact .inl ⟨(listingsIn_of_quiet hquiet).2, hother⟩
  | listed s₁ result hquiet hlists hwants hwhy hknown =>
    exact .inr ⟨(listingsIn_of_lists hquiet hlists).2, hwants, hwhy, hknown⟩

/-- What is told of the tool is told from its state, if that is known or found out. -/
theorem answered_of_probed {α : Type} {s : Session} {step : Step}
    (h : r.after s step = r.probed step.world s) {known : ToolStatus}
    (hknown : ∀ status, (r.after s step).status.value? = some status → status = known)
    (f : ToolStatus → α) :
    r.AnsweredUnlessRejected s step (((r.knownStatus step.world s).map f).mapError .badCommand)
      (f known) := by
  cases hstatus : r.knownStatus step.world s with
  | error fault =>
    obtain ⟨run, hmem⟩ := knownStatus_eq_error_iff_mem.mp hstatus
    exact .inr ⟨run, fault, (probesIn_of_probed h).symm ▸ hmem, rfl⟩
  | ok status =>
    have hfound := (r.knownStatus_eq_ok_iff step.world s).mp hstatus
    rw [← hknown status (h.symm ▸ hfound)]
    exact .inl rfl

theorem status_session {earlier steps : List Step} {step : Step} (h : earlier ++ [step] <+: steps)
    {status : ToolStatus} (hstatus : (r.after (r.session earlier) step).status.value? = some status) :
    (r.session steps).status.value? = some status :=
  (keeps_session h).status status (by rw [session_concat, hstatus])

theorem command_session {earlier steps : List Step} {step : Step} (h : earlier ++ [step] <+: steps)
    {tool : Text} (htool : (r.after (r.session earlier) step).command.value? = some tool) :
    (r.session steps).command.value? = some tool :=
  (keeps_session h).command tool (by rw [session_concat, htool])

theorem command_after_of_use {step : Step}
    (huse : r.newRuns s step ≠ [] ∨ step.request = .command) :
    (r.after s step).command.value? = some (r.executable step.world s) := by
  by_cases hrequest : step.request = .command
  · obtain ⟨w, request⟩ := step
    obtain rfl : request = .command := hrequest
    rw [after_command, knowing_command]
  · rcases (extends_after s hrequest).command with ⟨-, hruns⟩ | ⟨hcommand, -⟩
    · have hnone : r.newRuns s step = [] := newRuns_eq (by rw [hruns, List.append_nil])
      exact absurd (huse.resolve_left fun h => h hnone) hrequest
    · exact hcommand

/-- The list of tags that is given is the one that is kept. -/
theorem toOption_tagList (s : Session) (w : World) :
    ((r.tagList w).runOn s).1.toOption = (r.after s ⟨w, .tagList⟩).tags.value? := by
  rw [after]
  cases h : s.tags.value? with
  | some tags =>
    rw [runOn_tagList_of_some r w s h]
    exact h.symm
  | none =>
    rcases r.lists_tagList w [] h with
      ⟨⟨fault, -, hout⟩, hquiet⟩ | ⟨s₁, hquiet, _, _, _, _, -, -, -, hafter⟩
    · rw [hout, hquiet.tags, h]
      rfl
    · rw [hafter]
      cases ((r.tagList w).runOn s).1 with
      | ok tags => rfl
      | error f =>
        -- a listing that failed leaves the cell as empty as it was
        rw [cellAfter, hquiet.tags, h]
        rfl

theorem memoised_status (r : Repository) (steps : List Step) : ∃ status : ToolStatus,
    (∀ earlier w, earlier ++ [⟨w, .availability⟩] <+: steps →
      r.AnsweredUnlessRejected (r.session earlier) ⟨w, .availability⟩
        ((r.isAvailable w).runOn (r.session earlier)).1 status.working) ∧
    (∀ earlier w, earlier ++ [⟨w, .version⟩] <+: steps →
      r.AnsweredUnlessRejected (r.session earlier) ⟨w, .version⟩
        ((r.version w).runOn (r.session earlier)).1 status.version) ∧
    ∀ run ∈ (r.session steps).runs, run.listsTags r.backend = true →
      run.arguments = tagArgs r.backend (r.tagFormat status) := by
  let known := (r.session steps).status.value?.getD ⟨false, .oldest⟩
  have hknown {status : ToolStatus} (h : (r.session steps).status.value? = some status) :
      status = known := by
    simp only [known, h, Option.getD_some]
  refine ⟨known, fun earlier w hpart => ?_, fun earlier w hpart => ?_, fun run hmem hlists => ?_⟩
  · rw [runOn_isAvailable]
    exact answered_of_probed (r.after_availability w _)
      (fun status hstatus => hknown (status_session hpart hstatus)) (·.working)
  · rw [runOn_version]
    exact answered_of_probed (r.after_version w _)
      (fun status hstatus => hknown (status_session hpart hstatus)) (·.version)
  · obtain ⟨status, hstatus, harguments⟩ := (remembers_session r steps).formats run hmem hlists
    rw [harguments, hknown hstatus]

theorem memoised_tool (r : Repository) (steps : List Step) : ∃ tool : Text,
    (∀ run ∈ (r.session steps).runs, run.command.argv.head? = some tool) ∧
    (∀ earlier w, earlier ++ [⟨w, .command⟩] <+: steps →
      ((r.command w).runOn (r.session earlier)).1 = .ok tool) ∧
    ∀ earlier step, earlier ++ [step] <+: steps → r.IsFirstUse earlier step →
      tool = r.config.commandFor step.world.environment r.backend.kind r.backend.usualCommand := by
  let known := (r.session steps).command.value?.getD []
  have hknown {tool : Text} (h : (r.session steps).command.value? = some tool) : tool = known := by
    simp only [known, h, Option.getD_some]
  refine ⟨known, fun run hmem => ?_, fun earlier w hpart => ?_, fun earlier step hpart hfirst => ?_⟩
  · obtain ⟨hsome, htool⟩ := (remembers_session r steps).tool run hmem
    obtain ⟨tool, hsome⟩ := Option.isSome_iff_exists.mp hsome
    rw [htool, hsome, hknown hsome]
  · rw [runOn_command]
    have hcommand : (r.after (r.session earlier) ⟨w, .command⟩).command.value? =
        some (r.executable w (r.session earlier)) := by
      rw [after_command, knowing_command]
    rw [hknown (command_session hpart hcommand)]
  · obtain ⟨hruns, hasked, huse⟩ := hfirst
    have hnone := command_session_eq_none hasked hruns
    have hcommand := command_after_of_use huse
    rw [← hknown (command_session hpart hcommand), executable_of_none hnone]

theorem session_memoised (r : Repository) (steps : List Step) : Memoised r steps where
  asked_again := (findsOut_session r steps).again
  asked := by
    rw [(findsOut_session r steps).count]
    exact Nat.zero_add _
  asked_once hanswered := by
    have hfinds := findsOut_session r steps
    have hcount : (r.session steps).runs.countP Run.asksVersion = 0 + _ := hfinds.count
    rw [hcount, Nat.zero_add]
    cases hprobes : r.probesOf {} steps with
    | nil => exact Nat.zero_le 1
    | cons first later =>
      have hagain := hfinds.again
      rw [hprobes, List.pairwise_cons] at hagain
      -- the first time, the tool could be asked
      cases later with
      | nil => exact Nat.le_refl 1
      | cons second later =>
        have hfirst := hanswered first (hprobes ▸ List.mem_cons_self)
        exact absurd (hagain.1 second List.mem_cons_self) hfirst
  asked_or_given earlier step _ := asksVersion_or_mem_given (r.session earlier) step
  status := memoised_status r steps
  tool := memoised_tool r steps
  rebuilt earlier w dir? _ := by
    rw [probesIn_newTagList]
    rcases countP_listsTags (r := r) (r.session earlier) ⟨w, .newTagList dir?⟩ with
      ⟨hcount, hwhy⟩ | ⟨hcount, -, -, hknown⟩
    · obtain ⟨fault, hstatus⟩ := hwhy dir? rfl
      obtain ⟨run, hmem⟩ := knownStatus_eq_error_iff_mem.mp hstatus
      exact .inr ⟨hcount, _, hmem, fault, rfl⟩
    · obtain ⟨status, hstatus⟩ := hknown dir? rfl
      refine .inl ⟨hcount, ?_⟩
      rintro ⟨run, o⟩ hmem ⟨fault, rfl⟩
      have herror := knownStatus_eq_error_iff_mem.mpr ⟨run, hmem⟩
      rw [hstatus] at herror
      contradiction
  listed earlier step _ hother := by
    rcases countP_listsTags (r := r) (r.session earlier) step with h | ⟨hcount, hwants, hwhy, -⟩
    · exact .inl h.1
    · have hnone := hwhy.resolve_left fun ⟨dir?, h⟩ => hother dir? h
      rw [(remembers_session r earlier).tags, List.getLast?_eq_none_iff] at hnone
      exact .inr ⟨hcount, hwants, hnone⟩
  answered earlier w _ := by
    rw [toOption_tagList, ← session_concat, (remembers_session r _).tags]

/-- With a time limit of 25 days, the tool is asked for its version each time that it is asked whether it
works. -/
theorem not_asked_once :
    ¬∀ (r : Repository) (steps : List Step),
      (∀ step ∈ steps, step.world.IsLawful (r.config.timeout.map .ofInt)) →
        (r.session steps).runs.countP Run.asksVersion ≤ 1 := by
  intro h
  let r : Repository := { backend := .git, root := .root, config := { timeout := some 2160000 } }
  let w : World := .facing (some (.ofInt 2160000)) (fun _ => .captured) "timeout is too large"
    fun _ => .exits {}
  let steps : List Step := [⟨w, .availability⟩, ⟨w, .availability⟩]
  have hlawful : w.IsLawful (r.config.timeout.map .ofInt) := World.isLawful_facing fun _ => nofun
  have hcount := h r steps (List.forall_mem_cons.mpr ⟨hlawful, List.forall_mem_singleton.mpr hlawful⟩)
  let s : Session := r.probed w {}
  have hstatus : r.knownStatus w {} = .error (.overlong "timeout is too large") :=
    knownStatus_facing_of_overlong (TimeLimit.isOverlong_ofInt 2160000) rfl rfl rfl
  have hunknown : s.status.value? = none := by
    rw [status_probed, hstatus]
    rfl
  have hsession : r.session steps = r.probed w s := by
    change r.after (r.after {} ⟨w, .availability⟩) ⟨w, .availability⟩ = r.probed w s
    rw [after_availability, after_availability]
  rw [hsession, countP_runs_probed w hunknown, countP_runs_probed w rfl] at hcount
  contradiction

/-- Where there is no tool, it is asked once, and the list of no tags is kept. -/
example :
    let w : World := { outcome := fun _ _ => .unstartable .missing }
    let r : Repository := { backend := .git, root := .root }
    let s := r.session [⟨w, .tagList⟩, ⟨w, .version⟩, ⟨w, .tagList⟩]
    s.runs.map (·.arguments.head?) = [some versionFlag, some (tagWord .git)] ∧ s.tags = ⟨some []⟩ := by
  decide +kernel

end Repository

end Annals

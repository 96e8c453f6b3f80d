import Annals.Proofs.Repository.Requests

/-!
# What is known of a tool

A tool is known from the one run in which it answered when it was asked for its version. The runs of a
request are put beside what became of them in its world (`outcomes`), and of these the ones that asked for
the version are looked at (`probesOf`). Quiet work finds out the state of the tool from such a run and from
nothing else (`Quiet.findsOut`); so does one request (`findsOut_after`), and by induction a whole session
(`findsOut_session`). The tool is asked again only as long as it could not be asked.
-/

namespace Annals

/-- Some runs and what became of them, in the world in which they were made. -/
def outcomes (w : World) : List Run → List Run → List (Run × Outcome)
  | _, [] => []
  | earlier, run :: later => (run, w.outcome earlier run.command.argv) :: outcomes w (earlier ++ [run]) later

theorem outcomes_append (w : World) (runs runs' earlier : List Run) :
    outcomes w earlier (runs ++ runs') =
      outcomes w earlier runs ++ outcomes w (earlier ++ runs) runs' := by
  induction runs generalizing earlier with
  | nil => simp [outcomes]
  | cons run runs ih => simp [outcomes, ih]

/-- The runs among some in which the tool was asked for its version, and what became of them. -/
def probes (w : World) (earlier runs : List Run) : List (Run × Outcome) :=
  (outcomes w earlier runs).filter (·.1.asksVersion)

theorem probes_append (w : World) (runs runs' earlier : List Run) :
    probes w earlier (runs ++ runs') = probes w earlier runs ++ probes w (earlier ++ runs) runs' := by
  rw [probes, outcomes_append, List.filter_append]
  rfl

theorem probes_singleton {w : World} {run : Run} (h : run.asksVersion = false) (earlier : List Run) :
    probes w earlier [run] = [] := by
  simp [probes, outcomes, h]

namespace Run

theorem asksVersion_of_arguments {run : Run} {args : List Text} (h : run.arguments = args) :
    run.asksVersion = decide (args.head? = some versionFlag) := by
  rw [Run.asksVersion, h]

theorem argv_ne_nil {run : Run} (h : run.asksVersion = true) : run.command.argv ≠ [] := by
  intro hnone
  rw [asksVersion, arguments, hnone] at h
  contradiction

theorem not_asksVersion_of_plain {b : Backend} {given : List Text} {run : Run} {args : List Text}
    (h : run.arguments = args) (hplain : Repository.Plain b given args) : run.asksVersion = false := by
  simp [asksVersion_of_arguments h, hplain.not_version]

theorem not_asksVersion_of_tagArgs {b : Backend} {run : Run} {format : Text}
    (h : run.arguments = Repository.tagArgs b format) : run.asksVersion = false := by
  rw [asksVersion_of_arguments h, Repository.head?_tagArgs]
  cases b <;> rfl

end Run

namespace Repository

variable {r : Repository} {w : World} {given : List Text} {s s' : Session}

theorem versionRun_asksVersion : (r.versionRun w s).asksVersion = true := rfl

theorem newRuns_eq {step : Step} {runs : List Run} (h : (r.after s step).runs = s.runs ++ runs) :
    r.newRuns s step = runs := by
  rw [newRuns, h, List.drop_left]

/-- What became of the runs in which a request asks the tool for its version. -/
def probesIn (r : Repository) (s : Session) (step : Step) : List (Run × Outcome) :=
  probes step.world s.runs (r.newRuns s step)

/-- What became of the runs in which some requests ask the tool for its version, in order. -/
def probesOf (r : Repository) : Session → List Step → List (Run × Outcome)
  | _, [] => []
  | s, step :: later => r.probesIn s step ++ probesOf r (r.after s step) later

theorem probesOf_concat (s : Session) (steps : List Step) (step : Step) :
    r.probesOf s (steps ++ [step]) = r.probesOf s steps ++ r.probesIn (steps.foldl r.after s) step := by
  induction steps generalizing s with
  | nil => simp [probesOf]
  | cons first steps ih => simp only [List.cons_append, probesOf, ih, List.foldl_cons, List.append_assoc]

/-- What the runs say of the tool in which it was asked for its version. -/
def statuses (r : Repository) (found : List (Run × Outcome)) : List ToolStatus :=
  found.filterMap fun probe => (r.backend.statusFrom probe.1 probe.2).toOption

theorem statuses_append (first second : List (Run × Outcome)) :
    r.statuses (first ++ second) = r.statuses first ++ r.statuses second :=
  List.filterMap_append

theorem statuses_singleton (probe : Run × Outcome) :
    r.statuses [probe] = (r.backend.statusFrom probe.1 probe.2).toOption.toList := by
  rw [statuses, List.filterMap_cons]
  cases (r.backend.statusFrom probe.1 probe.2).toOption <;> rfl

/-- Some changes of a session find out of the tool what it says when it is asked for its version. It is
asked only if nothing is known of it, and again only if it could not be asked. -/
structure FindsOut (r : Repository) (s s' : Session) (asked : List (Run × Outcome)) : Prop where
  status : s'.status.value?.toList = s.status.value?.toList ++ r.statuses asked
  known : s.status.value? ≠ none → asked = []
  again : asked.Pairwise fun probe _ => probe.2.IsRejected
  asksVersion : ∀ probe ∈ asked, probe.1.asksVersion = true
  count : s'.runs.countP Run.asksVersion = s.runs.countP Run.asksVersion + asked.length

namespace FindsOut

variable {asked : List (Run × Outcome)}

theorem of_same (hruns : s'.runs = s.runs) (hstatus : s'.status = s.status) : FindsOut r s s' [] where
  status := by rw [hstatus]; exact (List.append_nil _).symm
  known _ := rfl
  again := .nil
  asksVersion := nofun
  count := by rw [hruns]; rfl

theorem refl (s : Session) : FindsOut r s s [] := of_same rfl rfl

theorem eq_none_of_unknown (h : FindsOut r s s' asked) (hunknown : s'.status.value? = none) :
    s.status.value? = none ∧ r.statuses asked = [] := by
  have hstatus := h.status
  rw [hunknown] at hstatus
  obtain ⟨hbefore, hfound⟩ := List.append_eq_nil_iff.mp hstatus.symm
  exact ⟨Option.toList_eq_nil_iff.mp hbefore, hfound⟩

/-- As long as nothing is known of the tool, it could not be asked. -/
theorem isRejected_of_unknown (h : FindsOut r s s' asked) (hunknown : s'.status.value? = none) :
    ∀ probe ∈ asked, probe.2.IsRejected := by
  rintro ⟨run, o⟩ hmem
  obtain ⟨-, hnone⟩ := h.eq_none_of_unknown hunknown
  have hfound := List.filterMap_eq_nil_iff.mp hnone (run, o) hmem
  cases hstatus : r.backend.statusFrom run o with
  | error fault =>
    have htool : run.command.argv ≠ [] := Run.argv_ne_nil (h.asksVersion _ hmem)
    exact ⟨fault, (Backend.statusFrom_eq_error_iff htool).mp hstatus⟩
  | ok status => simp [hstatus, Except.toOption] at hfound

theorem trans {s'' : Session} {asked' : List (Run × Outcome)} (h : FindsOut r s s' asked)
    (h' : FindsOut r s' s'' asked') : FindsOut r s s'' (asked ++ asked') := by
  refine ⟨?_, fun hknown => ?_, ?_, ?_, ?_⟩
  · rw [h'.status, h.status, statuses_append, List.append_assoc]
  · have hstill : s'.status.value? ≠ none := fun hunknown => hknown (h.eq_none_of_unknown hunknown).1
    rw [h.known hknown, h'.known hstill, List.append_nil]
  · refine List.pairwise_append.mpr ⟨h.again, h'.again, fun first hfirst second hsecond => ?_⟩
    refine h.isRejected_of_unknown ?_ first hfirst
    by_contra hknown
    rw [h'.known hknown] at hsecond
    contradiction
  · exact List.forall_mem_append.mpr ⟨h.asksVersion, h'.asksVersion⟩
  · rw [h'.count, h.count, List.length_append, Nat.add_assoc]

/-- A further run in which the tool is not asked for its version. -/
theorem run {run : Run} (hrun : run.asksVersion = false) (hruns : s'.runs = s.runs ++ [run])
    (hstatus : s'.status = s.status) : FindsOut r s s' [] where
  status := by rw [hstatus]; exact (List.append_nil _).symm
  known _ := rfl
  again := .nil
  asksVersion := nofun
  count := by simp [hruns, hrun]

/-- The run that asks the tool for its version, when nothing is known of it. -/
theorem probe (hunknown : s.status.value? = none) (hruns : s'.runs = s.runs ++ [r.versionRun w s])
    (hstatus : s'.status = cellAfter s.status (r.foundStatus w s)) :
    FindsOut r s s' [(r.versionRun w s, r.versionOutcome w s)] where
  status := by
    rw [statuses_singleton, ← foundStatus, hstatus, hunknown]
    cases r.foundStatus w s with
    | error fault => simp [cellAfter, hunknown, Except.toOption]
    | ok status => rfl
  known hknown := absurd hunknown hknown
  again := List.pairwise_singleton _ _
  asksVersion := List.forall_mem_singleton.mpr versionRun_asksVersion
  count := by simp [hruns, versionRun_asksVersion]

end FindsOut

/-- Runs are added, and find out of the tool what they say. -/
def AddsRuns (r : Repository) (w : World) (s s' : Session) : Prop :=
  ∃ runs, s'.runs = s.runs ++ runs ∧ FindsOut r s s' (probes w s.runs runs)

theorem AddsRuns.trans {s'' : Session} (h : AddsRuns r w s s') (h' : AddsRuns r w s' s'') :
    AddsRuns r w s s'' := by
  obtain ⟨runs, hruns, hfinds⟩ := h
  obtain ⟨runs', hruns', hfinds'⟩ := h'
  refine ⟨runs ++ runs', by rw [hruns', hruns, List.append_assoc], ?_⟩
  rw [probes_append, ← hruns]
  exact hfinds.trans hfinds'

theorem AddsRuns.run {run : Run} (hrun : run.asksVersion = false) (hruns : s'.runs = s.runs ++ [run])
    (hstatus : s'.status = s.status) : AddsRuns r w s s' := by
  refine ⟨[run], hruns, ?_⟩
  rw [probes_singleton hrun]
  exact .run hrun hruns hstatus

theorem Quiet.addsRuns (h : Quiet r w given s s') : AddsRuns r w s s' := by
  induction h with
  | refl => exact ⟨[], (List.append_nil _).symm, .refl _⟩
  | note notes _ ih =>
    obtain ⟨runs, hruns, hfinds⟩ := ih
    exact ⟨runs, hruns, ⟨hfinds.status, hfinds.known, hfinds.again, hfinds.asksVersion, hfinds.count⟩⟩
  | @run s' args run notes _ hargv hplain ih =>
    have harguments : run.arguments = args := by rw [Run.arguments, hargv]; rfl
    exact ih.trans (.run (Run.not_asksVersion_of_plain harguments hplain) rfl rfl)
  | @probe s' notes _ hunknown ih =>
    exact ih.trans ⟨[r.versionRun w s'], rfl, .probe hunknown rfl rfl⟩

theorem Lists.addsRuns {result : Except Failure (List Tag)} (h : Lists r w s result s') :
    AddsRuns r w s s' := by
  obtain ⟨status, dir, run, notes, -, hcommand, -, rfl⟩ := h
  have harguments : run.arguments = tagArgs r.backend (r.tagFormat status) := by
    rw [Run.arguments, hcommand]
    rfl
  exact .run (Run.not_asksVersion_of_tagArgs harguments) rfl rfl

/-- One request finds out of the tool what its runs say. -/
theorem findsOut_after (s : Session) (step : Step) :
    FindsOut r s (r.after s step) (r.probesIn s step) := by
  have hadds : AddsRuns r step.world s (r.after s step) := by
    cases r.handled_after s step with
    | named _ hknowing =>
      rw [hknowing]
      exact ⟨[], (List.append_nil _).symm, .of_same rfl rfl⟩
    | quiet hquiet => exact hquiet.addsRuns
    | listed s₁ result hquiet hlists => exact hquiet.addsRuns.trans hlists.addsRuns
  obtain ⟨runs, hruns, hfinds⟩ := hadds
  rwa [probesIn, newRuns_eq hruns]

/-- The run in which the tool is asked for its version as long as nothing is known of it. -/
def newProbes (r : Repository) (w : World) (s : Session) : List (Run × Outcome) :=
  match s.status.value? with
  | some _ => []
  | none => [(r.versionRun w s, r.versionOutcome w s)]

theorem knownStatus_eq_error_iff_mem {fault : CommandFault} :
    r.knownStatus w s = .error fault ↔ ∃ run, (run, .rejected fault) ∈ r.newProbes w s := by
  rw [knownStatus_eq_error_iff, newProbes]
  cases s.status.value? with
  | some status => simp
  | none => simp [eq_comm]

theorem runs_probed (r : Repository) (w : World) (s : Session) :
    (r.probed w s).runs = s.runs ++ (r.newProbes w s).map Prod.fst := by
  unfold probed newProbes
  cases h : s.status.value? with
  | some status => rw [r.runOn_status_of_some w s h, List.map_nil, List.append_nil]
  | none =>
    obtain ⟨notes, -, hrun⟩ := r.runOn_status_of_none w s h
    rw [hrun]
    rfl

theorem countP_runs_probed (w : World) (h : s.status.value? = none) :
    (r.probed w s).runs.countP Run.asksVersion = s.runs.countP Run.asksVersion + 1 := by
  simp [runs_probed, newProbes, h, versionRun_asksVersion]

theorem probes_newProbes (r : Repository) (w : World) (s : Session) :
    probes w s.runs ((r.newProbes w s).map Prod.fst) = r.newProbes w s := by
  unfold newProbes
  cases s.status.value? <;> rfl

/-- A request that only finds out the state of the tool. -/
theorem probesIn_of_probed {step : Step} (h : r.after s step = r.probed step.world s) :
    r.probesIn s step = r.newProbes step.world s := by
  rw [probesIn, newRuns_eq (by rw [h, runs_probed]), probes_newProbes]

theorem probesIn_newTagList (r : Repository) (s : Session) (w : World) (dir? : Option Path) :
    r.probesIn s ⟨w, .newTagList dir?⟩ = r.newProbes w s := by
  have hafter : r.after s ⟨w, .newTagList dir?⟩ = ((r.rebuildTagList w dir?).runOn s).2 := rfl
  rw [runOn_rebuildTagList] at hafter
  cases hstatus : r.knownStatus w s with
  | error fault =>
    rw [r.runOn_enumerateTags_of_unknown w s hstatus] at hafter
    exact probesIn_of_probed hafter
  | ok status =>
    have hknown := (r.knownStatus_eq_ok_iff w s).mp hstatus
    obtain ⟨run, notes, hrun, hlist⟩ :=
      r.runOn_enumerateTags w (r.probed w s) hknown (dir?.getD r.root)
    rw [r.runOn_enumerateTags_of_known w s hstatus, hlist] at hafter
    have hruns : (r.after s ⟨w, .newTagList dir?⟩).runs =
        s.runs ++ ((r.newProbes w s).map Prod.fst ++ [run]) := by
      rw [hafter, ← List.append_assoc, ← runs_probed]
    have hplain : run.asksVersion = false := by
      have harguments : run.arguments = tagArgs r.backend (r.tagFormat status) := by
        rw [Run.arguments, hrun]
        rfl
      exact Run.not_asksVersion_of_tagArgs harguments
    rw [probesIn, newRuns_eq hruns, probes_append, probes_newProbes, probes_singleton hplain,
      List.append_nil]

/-- A tool of which nothing is known cannot be asked with a time limit that is longer than the system waits
for, even if it would exit. -/
theorem knownStatus_facing_of_overlong {n : Int} {mode : List Text → Mode} {words : Text} {e : Exit}
    (hlong : (TimeLimit.ofInt n).isOverlong = true) :
    let w : World := .facing (some (.ofInt n)) mode words fun _ => .exits e
    let argv := (r.versionRun w s).command.argv
    mode argv = .captured → Command.holdsNul { argv } = false → s.status.value? = none →
      r.knownStatus w s = .error (.overlong words) := by
  intro w argv hmode hnul hunknown
  have hstays : Command.overstays { argv, timeout := some (.ofInt n) } (.exits e) = true := by
    have hnul : Command.holdsNul { argv, timeout := some (.ofInt n) } = false := hnul
    have htool : argv ≠ [] := List.cons_ne_nil _ _
    simp [Command.overstays, hnul, hlong, htool, Outcome.exit?]
  exact (r.knownStatus_eq_error_iff w s).mpr
    ⟨hunknown, World.outcome_facing_of_overstays hmode hstays s.runs⟩

/-! ## Whole sessions -/

theorem findsOut_foldl (steps : List Step) (s : Session) :
    FindsOut r s (steps.foldl r.after s) (r.probesOf s steps) := by
  induction steps generalizing s with
  | nil => exact .refl s
  | cons step steps ih => exact (findsOut_after s step).trans (ih (r.after s step))

/-- In a whole session the tool is asked for its version until it answers, and what is known of it is what
became of that run. -/
theorem findsOut_session (r : Repository) (steps : List Step) :
    FindsOut r {} (r.session steps) (r.probesOf {} steps) :=
  findsOut_foldl steps {}

/-- The run in which the tool was asked for its version at last is all that is known of it. -/
theorem exists_lastProbe (r : Repository) (steps : List Step) {step : Step}
    (h : r.after (r.session steps) step = r.probed step.world (r.session steps)) :
    ∃ failed run o, r.probesOf {} (steps ++ [step]) = failed ++ [(run, o)] ∧
      (∀ probe ∈ failed, probe.2.IsRejected) ∧
      r.knownStatus step.world (r.session steps) = r.backend.statusFrom run o := by
  obtain ⟨w, request⟩ := step
  have hfinds := findsOut_session r steps
  have hconcat : r.probesOf {} (steps ++ [⟨w, request⟩]) =
      r.probesOf {} steps ++ r.probesIn (r.session steps) ⟨w, request⟩ := probesOf_concat {} steps _
  rw [probesIn_of_probed h, newProbes] at hconcat
  cases hstatus : (r.session steps).status.value? with
  | none =>
    -- the tool is asked now, and could not be asked before
    rw [hstatus] at hconcat
    refine ⟨_, _, _, hconcat, hfinds.isRejected_of_unknown hstatus, ?_⟩
    rw [knownStatus, hstatus]
    rfl
  | some status =>
    -- the tool is known from the last time that it was asked
    rw [hstatus, List.append_nil] at hconcat
    have hfound : r.statuses (r.probesOf {} steps) = [status] := by
      have hsession := hfinds.status
      rw [hstatus] at hsession
      exact hsession.symm
    obtain ⟨failed, ⟨run, o⟩, hlast⟩ : ∃ failed last, r.probesOf {} steps = failed ++ [last] := by
      rcases List.eq_nil_or_concat' (r.probesOf {} steps) with hnil | hlast
      · rw [hnil] at hfound
        contradiction
      · exact hlast
    have hrejected : ∀ probe ∈ failed, probe.2.IsRejected := by
      have hagain := hfinds.again
      rw [hlast, List.pairwise_append] at hagain
      exact fun probe hmem => hagain.2.2 probe hmem (run, o) List.mem_cons_self
    have hnone : r.statuses failed = [] := by
      refine List.filterMap_eq_nil_iff.mpr fun probe hmem => ?_
      obtain ⟨fault, hfault⟩ := hrejected probe hmem
      have hasks := hfinds.asksVersion probe (hlast ▸ List.mem_append_left _ hmem)
      rw [(Backend.statusFrom_eq_error_iff (Run.argv_ne_nil hasks)).mpr hfault]
      rfl
    refine ⟨failed, run, o, by rw [hconcat, hlast], hrejected, ?_⟩
    rw [hlast, statuses_append, hnone, List.nil_append, statuses_singleton] at hfound
    rw [knownStatus, hstatus]
    cases hfrom : r.backend.statusFrom run o with
    | error fault => simp [hfrom, Except.toOption] at hfound
    | ok found => simpa [hfrom, Except.toOption, eq_comm] using hfound

end Repository

end Annals

import Annals.Proofs.Process.Endings
import Annals.Proofs.Repository.Containment

/-!
# Lists of tags in a session

What a listing of tags gives is a function of what becomes of its command (`Backend.listed`): the records,
no records if the tool fails, and nothing at all if a date leaves the years 1 to 9999 in UTC, or if the
command cannot be run. The first listing of a session makes the tool tell its version before
(`Repository.probed`), and what it prints then is all that is known of it (`foundStatus`); if it cannot be
asked, nothing is, and there is no listing. A list that has been made is kept (`runOn_tagList_of_some`);
if there is none, it is made and kept unless making it fails (`runOn_tagList_of_none`).
-/

namespace Annals

theorem Banner.not_isError_remarks (b : Banner) (output? : Option Text) :
    ∀ note ∈ ToolStatus.remarks b output?, note.isError = false := by
  unfold ToolStatus.remarks
  split
  · exact List.forall_mem_nil _
  · split
    · exact List.forall_mem_nil _
    · exact List.forall_mem_singleton.mpr rfl

namespace Backend

/-- What is known of a tool from a run in which it was asked for its version. -/
def statusFrom (b : Backend) (run : Run) (o : Outcome) : Except CommandFault ToolStatus :=
  (run.command.printed? o).map (ToolStatus.ofOutput b.banner)

/-- A tool is not known from a run only if the command was rejected. -/
theorem statusFrom_eq_error_iff {b : Backend} {run : Run} {o : Outcome} {fault : CommandFault}
    (htool : run.command.argv ≠ []) : b.statusFrom run o = .error fault ↔ o = .rejected fault := by
  rw [← run.command.ending_eq_error_iff run.command.timeout htool]
  unfold statusFrom Command.printed?
  rcases run.command.ending run.command.timeout o with fault' | cause | e <;> simp [Except.map]

/-- What the listing of tags by a command gives, from what becomes of the command: the records in order
if it exits with status 0, no records if not, and a failure if a record cannot be read at all or if the
command cannot be run. -/
def listed (b : Backend) (c : Command) (o : Outcome) : Except Failure (List Tag) :=
  match o.exit?.bind fun e => (b.readTags (textLines e.stdout)).failure? with
  | some f => .error f
  | none =>
    match c.ending c.streamLimit? o with
    | .error fault => .error (.badCommand fault)
    | .ok (.error _) => .ok []
    | .ok (.ok e) => .ok (if e.code = 0 then (b.readTags (textLines e.stdout)).result else [])

/-- The records that are read, if they are in order already. -/
theorem result_readTags {b : Backend} {lines : List Text} {tags : List Tag}
    (h : b.tagRecords lines = tags) (hzoned : ∀ tag ∈ tags, tag.date.isZoned = true)
    (horder : tags.Pairwise fun a c => a.le c = true) : (b.readTags lines).result = tags := by
  have hsort := b.sort?_tagRecords lines
  rw [h, Tag.sort?_of_isZoned hzoned, Tag.sort, List.mergeSort_of_pairwise horder] at hsort
  exact (Option.some.inj hsort).symm

/-- What a streamed listing comes to for its caller. -/
theorem listed_eq (b : Backend) (c : Command) (o : Outcome) {σ : Type}
    (feed : σ → Text → Fed σ Failure) (init : σ) (tags : σ → List Tag)
    (hread : ∀ lines, b.readTags lines =
      ⟨tags (Fed.all feed init lines).state, (Fed.all feed init lines).notes,
        (Fed.all feed init lines).failure?⟩) :
    b.listed c o =
      match (c.stream o feed init).answer with
      | .error f => .error f
      | .ok (_, .error _) => .ok []
      | .ok (state, .ok result) => .ok (if result.code = 0 then tags state else []) := by
  simp only [listed, Streamed.answer, c.result_stream_eq o feed init, hread]
  cases o.exit?.bind fun e => (Fed.all feed init (textLines e.stdout)).failure? with
  | some f => rfl
  | none =>
    rcases hending : c.ending c.streamLimit? o with fault | cause | e
    · rfl
    · rfl
    · have hprints := ((c.ending_eq_ok_iff c.streamLimit?).mp hending).prints
      simp only [Except.map, c.state_stream hprints]

/-- A listing fails only at a date that is out of range, or if its command is rejected. -/
theorem of_listed_eq_error {b : Backend} {c : Command} {o : Outcome} {f : Failure}
    (htool : c.argv ≠ []) (h : b.listed c o = .error f) :
    (f = .dateOutOfRange ∧
      ∃ e, o.Prints e ∧ ∃ line ∈ textLines e.stdout, b.TagOverflows line) ∨
      ∃ fault, f = .badCommand fault ∧ o = .rejected fault := by
  unfold listed at h
  split at h
  · next f' hf =>
    obtain ⟨e, he, hfailure⟩ := Option.bind_eq_some_iff.mp hf
    obtain rfl := Except.error.inj h
    rw [b.failure?_readTags] at hfailure
    split at hfailure
    · next hline =>
      exact .inl ⟨(Option.some.inj hfailure).symm, e, Outcome.exit?_eq_some_iff.mp he, hline⟩
    · contradiction
  · split at h
    · next fault hending =>
      refine .inr ⟨fault, (Except.error.inj h).symm, ?_⟩
      exact (c.ending_eq_error_iff c.streamLimit? htool).mp hending
    · contradiction
    · contradiction

end Backend

namespace Once

variable {α : Type}

theorem runOn_get_of_some {cell : Once α} {a : α} (h : cell.value? = some a) (compute : Work α)
    (s : Session) : Work.runOn (cell.get compute) s = (.ok (a, cell), s) := by
  unfold get
  rw [h]
  rfl

theorem runOn_refresh (compute : Work α) (s : Session) :
    Work.runOn (refresh compute) s =
      ((compute.runOn s).1.map fun a => (a, ⟨some a⟩), (compute.runOn s).2) := by
  unfold refresh
  rw [Work.runOn_bind]
  rcases compute.runOn s with ⟨a | f, s'⟩ <;> rfl

theorem runOn_get_of_none {cell : Once α} (h : cell.value? = none) (compute : Work α) (s : Session) :
    Work.runOn (cell.get compute) s =
      ((compute.runOn s).1.map fun a => (a, ⟨some a⟩), (compute.runOn s).2) := by
  rw [← runOn_refresh]
  unfold get
  rw [h]

end Once

namespace Repository

variable (r : Repository) (w : World) (s : Session)

/-! ## The state of the tool -/

/-- The session after the state of the tool has been asked for. -/
def probed : Session := ((r.status w).runOn s).2

/-- The run that makes the tool tell its version. -/
def versionRun : Run := ⟨r.toolCommand w s none ["--version"], .captured, true, false⟩

/-- What becomes of the run that makes the tool tell its version. -/
def versionOutcome : Outcome := w.outcome s.runs (r.versionRun w s).command.argv

/-- The state of the tool as it is found out in a session. -/
def foundStatus : Except CommandFault ToolStatus :=
  r.backend.statusFrom (r.versionRun w s) (r.versionOutcome w s)

/-- The state of the tool in a session: the one found out before, or the one to be found out. -/
def knownStatus : Except CommandFault ToolStatus :=
  match s.status.value? with
  | some status => .ok status
  | none => r.foundStatus w s

/-- What a cell holds after its content was made anew, or was to be made. -/
def cellAfter {α ε : Type} (cell : Once α) : Except ε α → Once α
  | .ok a => ⟨some a⟩
  | .error _ => cell

/-- The state of the tool is not known only if the tool cannot be asked. -/
theorem knownStatus_eq_error_iff {fault : CommandFault} : r.knownStatus w s = .error fault ↔
    s.status.value? = none ∧ r.versionOutcome w s = .rejected fault := by
  unfold knownStatus
  cases s.status.value? with
  | some status => simp
  | none =>
    rw [and_iff_right rfl]
    exact Backend.statusFrom_eq_error_iff (List.cons_ne_nil _ _)

theorem runOn_status_of_some {status : ToolStatus} (h : s.status.value? = some status) :
    (r.status w).runOn s = (.ok status, s) := by
  rw [Repository.status, Work.runOn_bind_of_ok (Work.runOn_get s),
    Work.runOn_bind_of_ok (Once.runOn_get_of_some h (r.probe w) s)]
  rfl

theorem runOn_versionOutput :
    let c := r.toolCommand w s none ["--version"]
    ∃ notes, (∀ note ∈ notes, note.isError = false) ∧ (r.versionOutput w).runOn s =
      ((c.printed? (w.outcome s.runs c.argv)).mapError .badCommand,
        { r.knowing w s with runs := s.runs ++ [r.versionRun w s], notes := s.notes ++ notes }) := by
  intro c
  let out := c.capture (w.outcome s.runs c.argv)
  have hcapture : (r.capture w none ["--version"]).runOn s = (out.result.mapError .badCommand,
      { r.knowing w s with runs := s.runs ++ [r.versionRun w s], notes := s.notes ++ out.notes }) := by
    have hrun : out.run = r.versionRun w s := c.run_capture _
    rw [← hrun]
    exact r.runOn_capture w s none ["--version"]
  have hnotes : ∀ note ∈ out.notes, note.isError = false := c.not_isError_capture _
  have hdebug (text : Text) : ∀ note ∈ out.notes ++ [.debug r.backend.source text], note.isError = false :=
    List.forall_mem_append.mpr ⟨hnotes, List.forall_mem_singleton.mpr rfl⟩
  have hresult : out.result = _ := c.result_capture (w.outcome s.runs c.argv)
  rw [hresult] at hcapture
  rw [versionOutput, Command.printed?]
  generalize c.ending c.timeout (w.outcome s.runs c.argv) = ended at hcapture ⊢
  rcases ended with fault | cause | e
  · exact ⟨out.notes, hnotes, Work.runOn_bind_of_error hcapture _⟩
  · refine ⟨_, hdebug (r.backend.title ++ " not available: " ++ cause.message), ?_⟩
    rw [Work.runOn_bind_of_ok hcapture, ← List.append_assoc]
    rfl
  · rw [Work.runOn_bind_of_ok hcapture]
    by_cases hcode : e.code = 0
    · simp only [Except.map, Except.mapError, if_pos hcode]
      exact ⟨out.notes, hnotes, rfl⟩
    · simp only [Except.map, Except.mapError, if_neg hcode]
      refine ⟨_, hdebug (r.backend.usualCommand ++ " --version exited with " ++ Text.ofInt e.code), ?_⟩
      rw [← List.append_assoc]
      rfl

theorem runOn_probe :
    ∃ notes, (∀ note ∈ notes, note.isError = false) ∧ (r.probe w).runOn s =
      ((r.foundStatus w s).mapError .badCommand,
        { r.knowing w s with runs := s.runs ++ [r.versionRun w s], notes := s.notes ++ notes }) := by
  obtain ⟨notes, hnotes, houtput⟩ := r.runOn_versionOutput w s
  have hfound : r.foundStatus w s =
      (Command.printed? _ (r.versionOutcome w s)).map (ToolStatus.ofOutput r.backend.banner) := rfl
  rw [probe, hfound]
  cases hprinted : (r.versionRun w s).command.printed? (r.versionOutcome w s) with
  | error fault =>
    have herror := houtput.trans (congrArg (·.mapError Failure.badCommand, _) hprinted)
    exact ⟨notes, hnotes, Work.runOn_bind_of_error herror _⟩
  | ok output? =>
    have hok := houtput.trans (congrArg (·.mapError Failure.badCommand, _) hprinted)
    have hremarks := r.backend.banner.not_isError_remarks output?
    refine ⟨_, List.forall_mem_append.mpr ⟨hnotes, hremarks⟩, ?_⟩
    rw [Work.runOn_bind_of_ok hok, ← List.append_assoc]
    rfl

/-- As long as nothing is known of the tool, it is asked for its version, and its state is kept. -/
theorem runOn_status_of_none (h : s.status.value? = none) :
    ∃ notes, (∀ note ∈ notes, note.isError = false) ∧ (r.status w).runOn s =
      ((r.foundStatus w s).mapError .badCommand,
        { r.knowing w s with
          runs := s.runs ++ [r.versionRun w s],
          status := cellAfter s.status (r.foundStatus w s), notes := s.notes ++ notes }) := by
  obtain ⟨notes, hnotes, hprobe⟩ := r.runOn_probe w s
  have hcell := Once.runOn_get_of_none h (r.probe w) s
  rw [hprobe] at hcell
  refine ⟨notes, hnotes, ?_⟩
  rw [Repository.status, Work.runOn_bind_of_ok (Work.runOn_get s)]
  cases hfound : r.foundStatus w s with
  | error fault =>
    rw [hfound] at hcell
    exact Work.runOn_bind_of_error hcell _
  | ok status =>
    rw [hfound] at hcell
    exact Work.runOn_bind_of_ok hcell

theorem runOn_status :
    (r.status w).runOn s = ((r.knownStatus w s).mapError .badCommand, r.probed w s) := by
  unfold probed knownStatus
  cases h : s.status.value? with
  | some status => rw [r.runOn_status_of_some w s h]; rfl
  | none =>
    obtain ⟨notes, -, hrun⟩ := r.runOn_status_of_none w s h
    rw [hrun]

theorem status_probed : (r.probed w s).status.value? = (r.knownStatus w s).toOption := by
  unfold probed knownStatus
  cases h : s.status.value? with
  | some status => rw [r.runOn_status_of_some w s h, h]; rfl
  | none =>
    obtain ⟨notes, -, hrun⟩ := r.runOn_status_of_none w s h
    rw [hrun]
    cases r.foundStatus w s with
    | error fault => exact h
    | ok status => rfl

/-- Once the state of the tool is known, it is not asked for again. -/
theorem knownStatus_eq_ok_iff {status : ToolStatus} :
    r.knownStatus w s = .ok status ↔ (r.probed w s).status.value? = some status := by
  rw [status_probed]
  cases r.knownStatus w s <;> simp [Except.toOption]

/-! ## Listings -/

/-- The format for listing tags that fits the state of the tool. -/
def tagFormat (status : ToolStatus) : Text :=
  status.select r.backend.newTagFormat (tagFormats r.backend).1 (tagFormats r.backend).2

/-- The command that lists the tags as seen from a directory, when the state of the tool is known. -/
def tagCommand (status : ToolStatus) (dir : Path) : Command :=
  r.toolCommand w s (some dir) (tagArgs r.backend (r.tagFormat status))

/-- What a listing gives once its command has come to what is said. -/
def listing : Except Failure (List Tag × Except ProcessFailure Result) → Except Failure (List Tag)
  | .error f => .error f
  | .ok (_, .error _) => .ok []
  | .ok (tags, .ok result) => .ok (if result.code = 0 then tags else [])

/-- The listing by a handler whose records are those of the tool's reader. -/
theorem runOn_stream_listing {σ : Type} (dir : Path) (args : List Text)
    (feed : σ → Text → Fed σ Failure) (init : σ) (tags : σ → List Tag)
    (hread : ∀ lines, r.backend.readTags lines =
      ⟨tags (Fed.all feed init lines).state, (Fed.all feed init lines).notes,
        (Fed.all feed init lines).failure?⟩) :
    let c := r.toolCommand w s (some dir) args
    ∃ run notes result, run.command = c ∧
      Work.runOn (do
        let (reader, result) ← r.stream w (some dir) args feed init
        return (tags reader, result)) s =
          (result, { r.knowing w s with runs := s.runs ++ [run], notes }) ∧
      listing result = r.backend.listed c (w.outcome s.runs c.argv) := by
  intro c
  let out := c.stream (w.outcome s.runs c.argv) feed init
  have hstream : (r.stream w (some dir) args feed init).runOn s =
      (out.answer, { r.knowing w s with runs := s.runs ++ [out.run], notes := s.notes ++ out.notes }) :=
    r.runOn_stream w s (some dir) args feed init
  have hlisted : r.backend.listed c (w.outcome s.runs c.argv) = match out.answer with
      | .error f => .error f
      | .ok (_, .error _) => .ok []
      | .ok (state, .ok result) => .ok (if result.code = 0 then tags state else []) :=
    r.backend.listed_eq c (w.outcome s.runs c.argv) feed init tags hread
  refine ⟨out.run, s.notes ++ out.notes, out.answer.map fun answer => (tags answer.1, answer.2),
    Command.command_run_stream c _ feed init, ?_, ?_⟩
  · rw [Work.runOn_bind, hstream]
    rcases out.answer with f | ⟨state, result⟩ <;> rfl
  · rw [hlisted]
    rcases out.answer with f | ⟨state, cause | result⟩ <;> rfl

theorem runOn_streamTags (dir : Path) (args : List Text) :
    let c := r.toolCommand w s (some dir) args
    ∃ run notes result, run.command = c ∧
      (r.streamTags w dir args).runOn s =
        (result, { r.knowing w s with runs := s.runs ++ [run], notes }) ∧
      listing result = r.backend.listed c (w.outcome s.runs c.argv) := by
  obtain ⟨backend, root, config⟩ := r
  cases backend with
  | bitkeeper =>
    exact runOn_stream_listing _ w s dir args BitKeeper.TagReader.feed {} (·.tags.1) fun _ => rfl
  | git => exact runOn_stream_listing _ w s dir args Git.TagReader.feed {} (·.tags) fun _ => rfl

/-- When the state of the tool is known, the tags are listed by one command, and what it comes to is what
the listing gives. -/
theorem runOn_enumerateTags {status : ToolStatus} (h : s.status.value? = some status) (dir : Path) :
    let c := r.tagCommand w s status dir
    ∃ run notes, run.command = c ∧ (r.enumerateTags w dir).runOn s =
      (r.backend.listed c (w.outcome s.runs c.argv),
        { r.knowing w s with runs := s.runs ++ [run], notes }) := by
  intro c
  obtain ⟨run, notes, result, hrun, hstream, hlisting⟩ :=
    r.runOn_streamTags w s dir (tagArgs r.backend (r.tagFormat status))
  have hlisted : listing result = r.backend.listed c (w.outcome s.runs c.argv) := hlisting
  rw [← hlisted, enumerateTags, Work.runOn_bind_of_ok (r.runOn_status_of_some w s h)]
  rcases result with f | ⟨tags, cause | result⟩
  · exact ⟨run, notes, hrun, Work.runOn_bind_of_error hstream _⟩
  · exact ⟨run, _, hrun, Work.runOn_bind_of_ok hstream⟩
  · by_cases hcode : result.code = 0
    · exact ⟨run, _, hrun, (Work.runOn_bind_of_ok hstream).trans (by
        simp only [listing, if_pos hcode]
        rfl)⟩
    · exact ⟨run, _, hrun, (Work.runOn_bind_of_ok hstream).trans (by
        simp only [listing, if_neg hcode]
        rfl)⟩

/-- A listing in any session: the tool tells its version first if its state is not known. -/
theorem runOn_enumerateTags_of_known {status : ToolStatus} (h : r.knownStatus w s = .ok status)
    (dir : Path) :
    (r.enumerateTags w dir).runOn s = (r.enumerateTags w dir).runOn (r.probed w s) := by
  have hrun := r.runOn_status w s
  rw [h] at hrun
  have hknown := (r.knownStatus_eq_ok_iff w s).mp h
  rw [enumerateTags, Work.runOn_bind_of_ok hrun,
    Work.runOn_bind_of_ok (r.runOn_status_of_some w (r.probed w s) hknown)]

/-- If it cannot be asked, there is no listing. -/
theorem runOn_enumerateTags_of_unknown {fault : CommandFault} (h : r.knownStatus w s = .error fault)
    (dir : Path) : (r.enumerateTags w dir).runOn s = (.error (.badCommand fault), r.probed w s) := by
  have hrun := r.runOn_status w s
  rw [h] at hrun
  exact Work.runOn_bind_of_error hrun _

/-! ## Keeping a list -/

theorem runOn_rebuildTagList (dir? : Option Path) :
    (r.rebuildTagList w dir?).runOn s =
      let out := (r.enumerateTags w (dir?.getD r.root)).runOn s
      (out.1.map fun _ => (), { out.2 with tags := cellAfter out.2.tags out.1 }) := by
  have hrefresh := Once.runOn_refresh (r.enumerateTags w (dir?.getD r.root)) s
  rw [rebuildTagList]
  cases hout : (r.enumerateTags w (dir?.getD r.root)).runOn s with
  | mk result s' =>
    rw [hout] at hrefresh
    cases result with
    | ok tags => exact Work.runOn_bind_of_ok hrefresh
    | error f => exact Work.runOn_bind_of_error hrefresh _

theorem runOn_tagList_of_some {tags : List Tag} (h : s.tags.value? = some tags) :
    (r.tagList w).runOn s = (.ok tags, s) := by
  rw [tagList, Work.runOn_bind_of_ok (Work.runOn_get s),
    Work.runOn_bind_of_ok (Once.runOn_get_of_some h (r.enumerateTags w r.root) s)]
  rfl

theorem runOn_tagList_of_none (h : s.tags.value? = none) :
    (r.tagList w).runOn s =
      let out := (r.enumerateTags w r.root).runOn s
      (out.1, { out.2 with tags := cellAfter out.2.tags out.1 }) := by
  have hget := Once.runOn_get_of_none h (r.enumerateTags w r.root) s
  rw [tagList, Work.runOn_bind_of_ok (Work.runOn_get s)]
  cases hout : (r.enumerateTags w r.root).runOn s with
  | mk result s' =>
    rw [hout] at hget
    cases result with
    | ok tags => exact Work.runOn_bind_of_ok hget
    | error f => exact Work.runOn_bind_of_error hget _

/-- Whether a date in the listing of tags that is made in a session is out of range. -/
def ListsOutOfRange (dir : Path) : Prop :=
  ∃ status e, (r.probed w s).status.value? = some status ∧
    (w.outcome (r.probed w s).runs (r.tagCommand w (r.probed w s) status dir).argv).Prints e ∧
    ∃ line ∈ textLines e.stdout, r.backend.TagOverflows line

/-- Whether the tool cannot be asked for the tags in a session, or not for its version before that. -/
def CannotList (dir : Path) (fault : CommandFault) : Prop :=
  r.knownStatus w s = .error fault ∨ ∃ status, (r.probed w s).status.value? = some status ∧
    w.outcome (r.probed w s).runs (r.tagCommand w (r.probed w s) status dir).argv = .rejected fault

/-- A listing fails only at a date that is out of range, or if there is none. -/
theorem of_enumerateTags_eq_error {dir : Path} {f : Failure}
    (h : ((r.enumerateTags w dir).runOn s).1 = .error f) :
    (f = .dateOutOfRange ∧ r.ListsOutOfRange w s dir) ∨
      ∃ fault, f = .badCommand fault ∧ r.CannotList w s dir fault := by
  cases hstatus : r.knownStatus w s with
  | error fault =>
    rw [r.runOn_enumerateTags_of_unknown w s hstatus] at h
    exact .inr ⟨fault, (Except.error.inj h).symm, .inl hstatus⟩
  | ok status =>
    have hknown := (r.knownStatus_eq_ok_iff w s).mp hstatus
    obtain ⟨run, notes, -, hlist⟩ := r.runOn_enumerateTags w (r.probed w s) hknown dir
    rw [r.runOn_enumerateTags_of_known w s hstatus, hlist] at h
    rcases Backend.of_listed_eq_error (List.cons_ne_nil _ _) h with ⟨hf, e, he, hline⟩ | ⟨fault, hf, ho⟩
    · exact .inl ⟨hf, status, e, hknown, he, hline⟩
    · exact .inr ⟨fault, hf, .inr ⟨status, hknown, ho⟩⟩

theorem of_rebuildTagList_eq_error {dir? : Option Path} {f : Failure}
    (h : ((r.rebuildTagList w dir?).runOn s).1 = .error f) :
    f = .dateOutOfRange ∨ ∃ fault, f = .badCommand fault := by
  rw [runOn_rebuildTagList] at h
  cases hlist : ((r.enumerateTags w (dir?.getD r.root)).runOn s).1 with
  | ok tags =>
    simp only [hlist] at h
    exact nomatch h
  | error f' =>
    simp only [hlist] at h
    obtain rfl := Except.error.inj h
    rcases r.of_enumerateTags_eq_error w s hlist with ⟨hf, -⟩ | ⟨fault, hf, -⟩
    · exact .inl hf
    · exact .inr ⟨fault, hf⟩

/-- A list of tags is not given only if there is none yet, and it cannot be made. -/
theorem of_tagList_eq_error {f : Failure} (h : ((r.tagList w).runOn s).1 = .error f) :
    s.tags.value? = none ∧ ((f = .dateOutOfRange ∧ r.ListsOutOfRange w s r.root) ∨
      ∃ fault, f = .badCommand fault ∧ r.CannotList w s r.root fault) := by
  cases htags : s.tags.value? with
  | some tags =>
    rw [r.runOn_tagList_of_some w s htags] at h
    contradiction
  | none =>
    rw [r.runOn_tagList_of_none w s htags] at h
    exact ⟨rfl, r.of_enumerateTags_eq_error w s h⟩

/-- If it cannot be made, it is not given. -/
theorem tagList_eq_error_of_cannotList {fault : CommandFault} (hnone : s.tags.value? = none)
    (h : r.CannotList w s r.root fault) : ((r.tagList w).runOn s).1 = .error (.badCommand fault) := by
  rw [r.runOn_tagList_of_none w s hnone]
  rcases h with hstatus | ⟨status, hknown, hrejected⟩
  · rw [r.runOn_enumerateTags_of_unknown w s hstatus]
  · obtain ⟨run, notes, -, hlist⟩ := r.runOn_enumerateTags w (r.probed w s) hknown r.root
    rw [r.runOn_enumerateTags_of_known w s ((r.knownStatus_eq_ok_iff w s).mpr hknown), hlist, hrejected]
    rfl

end Repository

end Annals

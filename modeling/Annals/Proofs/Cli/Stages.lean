import Annals.Proofs.Config.Loading
import Annals.Proofs.Repository.BestEffort
import Annals.Proofs.Repository.Propagation

/-!
# The stages of a command

A command that works on one repository goes through stages (`Stages`): the repository is found, its tool
is made to tell its version, a file may have to be tracked, and then the tool is run for what the command
is to show. The first stage that fails ends it. `Ends` says how: which stage it was, what was run by then,
the exit code and what is written. `answer_ends` goes through the stages once for all commands; which
failures the last one has is told for each of them (`misses_of_retrieve_error`).
-/

namespace Annals

namespace Work

variable {α β : Type} {x : Work α} {s s' : Session} {f : Failure}

/-- Two actions fail one after the other as the first of them does that fails. -/
theorem of_runOn_bind_eq_error {g : α → Work β} (h : (x >>= g).runOn s = (.error f, s')) :
    x.runOn s = (.error f, s') ∨ ∃ a s₁, x.runOn s = (.ok a, s₁) ∧ (g a).runOn s₁ = (.error f, s') := by
  rw [runOn_bind] at h
  rcases hrun : x.runOn s with ⟨f' | a, s₁⟩
  · rw [hrun] at h
    obtain ⟨hf, rfl⟩ := Prod.mk.inj h
    rw [Except.error.inj hf]
    exact .inl rfl
  · rw [hrun] at h
    exact .inr ⟨a, s₁, rfl, h⟩

/-- What is made of an answer does not fail. -/
theorem of_runOn_bind_pure_eq_error {g : α → β}
    (h : (do return g (← x) : Work β).runOn s = (.error f, s')) : x.runOn s = (.error f, s') :=
  (of_runOn_bind_eq_error h).resolve_right fun ⟨_, _, _, hpure⟩ => nomatch hpure

end Work

namespace Repository

variable (r : Repository) (w : World)

/-- Whether the tool prints something with status 0 when it is made to tell its version. -/
def Works : Prop :=
  ∃ text, (r.versionRun w {}).command.printed? (r.versionOutcome w {}) = .ok (some text)

/-- Whether the tool, asked after it has told its version, says that a file is tracked. -/
def Tracks (file : Path) : Prop :=
  let c := r.trackingCommand w {} file
  ∃ errors, (c.ending c.timeout (w.outcome [r.versionRun w {}] c.argv)).map
    (bestEffort false (saysUntracked r.backend) (saysTracked r.backend (w.files.absolute file).name)) =
      .ok (true, errors)

/-- The runs before the tool is run for what is to be shown. -/
def checks (checked? : Option Path) : List Run :=
  r.versionRun w {} :: (checked?.map (r.trackingRun w {})).toList

/-- A session in which the tool has told its version, and whether a file is tracked if that is asked. -/
structure Checked (checked? : Option Path) (s : Session) : Prop where
  command : s.command.value? = some (r.executable w {})
  status : ∃ status, r.foundStatus w {} = .ok status ∧ s.status.value? = some status
  tags : s.tags.value? = none
  runs : s.runs = r.checks w checked?

theorem works_iff {status : ToolStatus} (h : r.foundStatus w {} = .ok status) :
    r.Works w ↔ status.working = true := by
  rw [Works]
  unfold foundStatus Backend.statusFrom at h
  rcases hprinted : (r.versionRun w {}).command.printed? (r.versionOutcome w {}) with fault | text?
  · rw [hprinted] at h
    exact nomatch h
  · rw [hprinted] at h
    obtain rfl := Except.ok.inj h
    cases text? <;> simp [ToolStatus.ofOutput]

theorem isAvailable_of_found {status : ToolStatus} (h : r.foundStatus w {} = .ok status)
    (notes : List Note) : ∃ s, r.Checked w none s ∧
      (r.isAvailable w).runOn { notes } = (.ok status.working, s) := by
  obtain ⟨notes', -, hrun⟩ := r.runOn_status_of_none w { notes } rfl
  have hfound : r.foundStatus w { notes } = .ok status := h
  rw [hfound] at hrun
  exact ⟨_, ⟨rfl, ⟨status, h, rfl⟩, rfl, rfl⟩, Work.runOn_bind_of_ok hrun⟩

theorem isAvailable_of_rejected {fault : CommandFault} (h : r.foundStatus w {} = .error fault)
    (notes : List Note) :
    (r.isAvailable w).runOn { notes } = (.error (.badCommand fault), r.probed w { notes }) := by
  have hknown : r.knownStatus w { notes } = .error fault := h
  rw [runOn_isAvailable, hknown]
  rfl

variable {r w}

/-- Whether a file is tracked is told, unless the command for it is rejected. -/
theorem runOn_isTracked {s : Session} (hs : r.Checked w none s) (file : Path) :
    (¬r.Tracks w file ∧ ∃ fault, ((r.isTracked w file).runOn s).1 = .error (.badCommand fault)) ∨
      ∃ tracked s', (tracked = true ↔ r.Tracks w file) ∧ r.Checked w (some file) s' ∧
        (r.isTracked w file).runOn s = (.ok tracked, s') := by
  have hanswers := r.answers_isTracked w s file
  obtain ⟨notes, hsession⟩ := r.session_isTracked w s file
  have hsame : r.executable w s = r.executable w {} := executable_of_some hs.command
  have hcommand : r.trackingCommand w s file = r.trackingCommand w {} file := by
    simp only [trackingCommand, toolCommand, hsame]
  have hchecking : r.trackingRun w s file = r.trackingRun w {} file := by
    simp only [trackingRun, captureRun, toolCommand, hsame]
  have hruns : s.runs = [r.versionRun w {}] := hs.runs
  simp only [hcommand, hruns] at hanswers
  rw [Tracks]
  generalize ((r.trackingCommand w {} file).ending _ _).map _ = answer at hanswers ⊢
  cases answer with
  | error fault => exact .inl ⟨(fun ⟨_, h⟩ => nomatch h), fault, hanswers⟩
  | ok answer =>
    obtain ⟨tracked, errors⟩ := answer
    obtain ⟨s', -, hrun, -⟩ := hanswers
    rw [hrun] at hsession
    obtain rfl : s' = { r.knowing w s with runs := s.runs ++ [r.trackingRun w s file], notes } := hsession
    refine .inr ⟨tracked, _, ?_, ?_, hrun⟩
    · simp
    · exact ⟨congrArg some hsame, hs.status, hs.tags, by rw [hs.runs, hchecking]; rfl⟩

end Repository

namespace Cli

/-- What a command does that works on one repository. -/
structure Stages where
  /-- Where the repository is looked for. -/
  place : Path
  /-- The file that has to be tracked, if one has to be, and the failure if it is not. -/
  checked? : Option (Path × Failure) := none
  /-- What is made of the repository to be written to standard output. -/
  retrieve : Repository → Work Bytes

namespace Request

/-- The stages of a request that works on one repository. -/
def stages? (w : World) : Request → Option Stages
  | .discover _ _ => none
  | .info _ _ => none
  | .history file since? _ json => some
    { place := file
      checked? := some (file, .noHistory file)
      retrieve := fun r => do
        let h ← r.history w file since?
        return written json (Json.ofHistory (h.mapTexts Text.raw) file.toText.raw) h.plain }
  | .annotate file revision? json => some
    { place := file
      checked? := some (file, .notAnnotatable file)
      retrieve := fun r => do
        let a ← r.annotate w file revision?
        return written json (Json.ofAnnotated (a.mapTexts Text.raw)) a.plain }
  | .tags root json => some
    { place := root
      retrieve := fun r => do
        r.rebuildTagList w (some root)
        let tags ← r.tagList w
        return written json (Json.ofTags (tags.map (Tag.mapTexts Text.raw)) root.toText.raw)
          (Tag.table tags) }
  | .cat file revision? =>
    let full := w.files.absolute file
    some
      { place := full.parent
        retrieve := fun r => do
          match ← r.content w full.parent full.name revision? with
          | some content => return content
          | none => throw (.noContent file revision?) }
  | .update root => some
    { place := root
      retrieve := fun r => do
        r.update w
        return Utf8.encode (Text.dropSequences ("Updated: " ++ root.toText) ++ ['\n']) }

/-- The settings for a request: a history may be asked for with its tags. -/
def settings (config : Config) : Request → Config
  | .history _ _ withTags _ => if withTags then { config with tagsEnabled := true } else config
  | _ => config

end Request

/-- Goes through the stages of a command. -/
def Stages.perform (st : Stages) (w : World) (config : Config) : Work Bytes := do
  let r ← holding w config st.place
  match st.checked? with
  | none => st.retrieve r
  | some (file, untracked) => if ← r.isTracked w file then st.retrieve r else throw untracked

section Performing

variable {w : World} {config : Config} {q : Request} {st : Stages}

/-- A request that works on one repository goes through its stages and does nothing else. -/
theorem Request.perform_eq (h : q.stages? w = some st) :
    q.perform w config = st.perform w (q.settings config) := by
  cases q with
  | discover path json => exact nomatch h
  | info root json => exact nomatch h
  | history file since? withTags json =>
    obtain rfl := Option.some.inj h
    simp only [Request.perform, historyReport, Stages.perform, map_bind, Request.settings]
    refine bind_congr fun r => bind_congr fun tracked => ?_
    cases tracked with
    | true => simp [line_report]
    | false => rfl
  | annotate file revision? json =>
    obtain rfl := Option.some.inj h
    simp only [Request.perform, annotationReport, Stages.perform, map_bind, Request.settings]
    refine bind_congr fun r => bind_congr fun tracked => ?_
    cases tracked with
    | true => simp [line_report]
    | false => rfl
  | tags root json =>
    obtain rfl := Option.some.inj h
    simp [Request.perform, tagReport, Stages.perform, Request.settings, line_report]
  | cat file revision? =>
    obtain rfl := Option.some.inj h
    rfl
  | update root =>
    obtain rfl := Option.some.inj h
    simp [Request.perform, updateReport, Stages.perform, Request.settings, line, shownLine_eq]

end Performing

/-! ## The last stage -/

/-- The failures of the last stage for which the exit code is 1. The tags are listed without one. -/
inductive Misses (r : Repository) : Request → Failure → Prop
  | history {file : Path} {since? : Option Text} {tags json : Bool} {f : Failure} :
    f.IsRetrieval → Misses r (.history file since? tags json) f
  | annotate {file : Path} {revision? : Option Text} {json : Bool} {f : Failure} :
    f.IsRetrieval → Misses r (.annotate file revision? json) f
  | update {root : Path} {f : Failure} :
    r.backend = .git → f.IsRetrieval → Misses r (.update root) f
  | noContent {file : Path} {revision? : Option Text} :
    Misses r (.cat file revision?) (.noContent file revision?)

/-- Updating is refused without asking the tool. -/
structure CannotUpdate (r : Repository) (q : Request) (f : Failure) : Prop where
  backend : r.backend = .bitkeeper
  request : ∃ root, q = .update root
  failure : f = .cannotUpdate

theorem report?_badCommand (fault : CommandFault) : (Failure.badCommand fault).report? = none := by
  cases fault <;> rfl

section Retrieving

variable {r : Repository} {w : World} {s s' : Session} {q : Request} {st : Stages} {f : Failure}

theorem misses_of_retrieve_error (h : q.stages? w = some st)
    (hfail : (st.retrieve r).runOn s = (.error f, s')) :
    Misses r q f ∨ (CannotUpdate r q f ∧ s' = s) ∨ f.report? = none := by
  have htask (request : Annals.Request) (hpropagates : request.Propagates r.backend)
      (hrequest : r.failure? s ⟨w, request⟩ = some f) : f.IsRetrieval ∨ f.report? = none :=
    (Repository.isOfTask_failure? hpropagates f hrequest).imp_right And.left
  cases q with
  | discover path json => exact nomatch h
  | info root json => exact nomatch h
  | history file since? withTags json =>
    obtain rfl := Option.some.inj h
    have hhistory := congrArg Prod.fst (Work.of_runOn_bind_pure_eq_error hfail)
    rcases htask (.history file since?) trivial
      (Repository.of?_eq_some_iff.mpr hhistory) with hretrieval | hunreported
    · exact .inl (.history hretrieval)
    · exact .inr (.inr hunreported)
  | annotate file revision? json =>
    obtain rfl := Option.some.inj h
    have hannotate := congrArg Prod.fst (Work.of_runOn_bind_pure_eq_error hfail)
    rcases htask (.annotate file revision?) trivial
      (Repository.of?_eq_some_iff.mpr hannotate) with hretrieval | hunreported
    · exact .inl (.annotate hretrieval)
    · exact .inr (.inr hunreported)
  | tags root json =>
    obtain rfl := Option.some.inj h
    have hwhy : f = .dateOutOfRange ∨ ∃ fault, f = .badCommand fault := by
      rcases Work.of_runOn_bind_eq_error hfail with hrebuild | ⟨_, s₁, -, hlist⟩
      · exact r.of_rebuildTagList_eq_error w s (congrArg Prod.fst hrebuild)
      · have hlist := congrArg Prod.fst (Work.of_runOn_bind_pure_eq_error hlist)
        exact (r.of_tagList_eq_error w s₁ hlist).2.imp And.left fun ⟨fault, hfault, _⟩ => ⟨fault, hfault⟩
    rcases hwhy with rfl | ⟨fault, rfl⟩
    · exact .inr (.inr rfl)
    · exact .inr (.inr (report?_badCommand fault))
  | cat file revision? =>
    obtain rfl := Option.some.inj h
    rcases Work.of_runOn_bind_eq_error hfail with hcontent | ⟨content?, s₁, -, hnone⟩
    · obtain ⟨fault, rfl⟩ := (r.answers_content w s _ _ revision?).eq_badCommand (congrArg Prod.fst hcontent)
      exact .inr (.inr (report?_badCommand fault))
    · cases content? with
      | some content => exact nomatch hnone
      | none =>
        obtain rfl := Except.error.inj (Prod.mk.inj hnone).1
        exact .inl .noContent
  | update root =>
    obtain rfl := Option.some.inj h
    have hupdate := Work.of_runOn_bind_pure_eq_error hfail
    cases hbackend : r.backend with
    | bitkeeper =>
      rw [Repository.update, hbackend] at hupdate
      obtain ⟨hf, rfl⟩ := Prod.mk.inj hupdate
      exact .inr (.inl ⟨⟨hbackend, ⟨root, rfl⟩, (Except.error.inj hf).symm⟩, rfl⟩)
    | git =>
      rcases htask .update hbackend
        (Repository.of?_eq_some_iff.mpr (congrArg Prod.fst hupdate)) with hretrieval | hunreported
      · exact .inl (.update hbackend hretrieval)
      · exact .inr (.inr hunreported)

end Retrieving

/-! ## Answers -/

/-- An answer that tells of a failure: nothing is written but notes and a line about it. -/
structure Answer.Fails (a : Answer) (f : Failure) (exitCode : Int) (runs : List Run) : Prop where
  exitCode : a.exitCode = exitCode
  stdout : a.stdout = []
  stderr : ∃ notes, a.stderr =
    notesText notes ++ ("Error: " ++ (Text.dropSequences f.message ++ ['\n']))
  runs : a.runs = runs

namespace Stages

/-- The repository in which a command works. -/
def find (st : Stages) (w : World) (config : Config) : Except PathFault (Option Found) :=
  Registry.builtin.findRepository w.files config st.place

/-- A command comes to its last stage in a repository and a session. -/
structure Reaches (st : Stages) (w : World) (config : Config) (r : Repository) (s : Session) :
    Prop where
  found : ∃ found, st.find w config = .ok (some found) ∧ found.repository = r
  works : r.Works w
  tracked : ∀ file f, st.checked? = some (file, f) → r.Tracks w file
  session : r.Checked w (st.checked?.map Prod.fst) s

end Stages

/-- How a command ends that goes through stages, by the first of them that fails. -/
inductive Ends (w : World) (config : Config) (q : Request) (st : Stages) (a : Answer) : Prop
  | outside :
    st.find w config = .ok none → a.Fails (.outsideRepositories st.place) 5 [] →
      Ends w config q st a
  | unavailable (found : Found) :
    st.find w config = .ok (some found) → ¬found.repository.Works w →
      a.Fails (.unavailable found.kind) 2 (found.repository.checks w none) → Ends w config q st a
  | untracked (found : Found) (file : Path) (f : Failure) :
    st.find w config = .ok (some found) → found.repository.Works w →
      st.checked? = some (file, f) → ¬found.repository.Tracks w file →
      a.Fails f 5 (found.repository.checks w (some file)) → Ends w config q st a
  | cannotUpdate (r : Repository) (s : Session) (f : Failure) :
    st.Reaches w config r s → CannotUpdate r q f → a.Fails f 3 (r.checks w none) → Ends w config q st a
  | missed (r : Repository) (s s' : Session) (f : Failure) :
    st.Reaches w config r s → (st.retrieve r).runOn s = (.error f, s') → Misses r q f →
      a.Fails f 1 s'.runs → Ends w config q st a
  | shown (r : Repository) (s s' : Session) (stdout : Bytes) :
    st.Reaches w config r s → (st.retrieve r).runOn s = (.ok stdout, s') → a.exitCode = 0 →
      a.stdout = stdout → a.runs = s'.runs → Ends w config q st a

/-! ## Through the stages -/

section Holding

variable {w : World} {config : Config} {st : Stages} {s : Session}

theorem runOn_perform_of_find_error {fault : PathFault} (h : st.find w config = .error fault) :
    (st.perform w config).runOn s = (.error (.badPath fault), s) :=
  Work.runOn_bind_of_error (Work.runOn_lookUp_bind_of_error h _ s) _

theorem runOn_perform_of_outside (h : st.find w config = .ok none) :
    (st.perform w config).runOn s = (.error (.outsideRepositories st.place), s) :=
  Work.runOn_bind_of_error (Work.runOn_lookUp_bind_of_ok h _ s) _

/-- A repository that is found has its tool asked whether it works. -/
theorem runOn_holding {found : Found} (notes : List Note) (h : st.find w config = .ok (some found)) :
    ∃ notes', (holding w config st.place).runOn { notes } =
      Work.runOn (do
        if ← found.repository.isAvailable w then return found.repository
        else throw (.unavailable found.kind)) { notes := notes' } :=
  ⟨_, (Work.runOn_lookUp_bind_of_ok h _ _).trans (Work.runOn_bind_of_ok (Work.runOn_note _ _))⟩

/-- It is worked with if its tool works. -/
theorem holding_of_found {found : Found} {status : ToolStatus} (notes : List Note)
    (h : st.find w config = .ok (some found)) (hstatus : found.repository.foundStatus w {} = .ok status) :
    ∃ s, found.repository.Checked w none s ∧ (holding w config st.place).runOn { notes } =
      (if status.working then .ok found.repository else .error (.unavailable found.kind), s) := by
  obtain ⟨notes', hholding⟩ := runOn_holding notes h
  obtain ⟨s, hs, havailable⟩ := found.repository.isAvailable_of_found w hstatus notes'
  refine ⟨s, hs, hholding.trans ((Work.runOn_bind_of_ok havailable).trans ?_)⟩
  split <;> rfl

theorem holding_of_rejected {found : Found} {fault : CommandFault} (notes : List Note)
    (h : st.find w config = .ok (some found)) (hstatus : found.repository.foundStatus w {} = .error fault) :
    ∃ s, (holding w config st.place).runOn { notes } = (.error (.badCommand fault), s) := by
  obtain ⟨notes', hholding⟩ := runOn_holding notes h
  have havailable := found.repository.isAvailable_of_rejected w hstatus notes'
  exact ⟨_, hholding.trans (Work.runOn_bind_of_error havailable _)⟩

end Holding

section Answering

variable {w : World} {config : Config} {q : Request} {st : Stages} {notes : List Note}
  {shown : Note → Bool}

theorem Request.answer_of_ok {stdout : Bytes} {s : Session}
    (h : (q.perform w config).runOn { notes } = (.ok stdout, s)) :
    q.answer w config notes shown =
      { stdout, stderr := notesText (s.notes.filter shown), runs := s.runs } := by
  have hrun : (q.perform w config).run.run { notes } = (.ok stdout, s) := h
  rw [answer, hrun]

theorem Request.answer_of_error {f : Failure} {s : Session}
    (h : (q.perform w config).runOn { notes } = (.error f, s)) :
    q.answer w config notes shown = failureAnswer (s.notes.filter shown) s.runs f := by
  have hrun : (q.perform w config).run.run { notes } = (.error f, s) := h
  rw [answer, hrun]

theorem failureAnswer_fails {f : Failure} (kind : ReportKind) {code : Int} {runs : List Run}
    (hkind : f.kind = .reported kind) (hcode : kind.exitCode = code) (notes : List Note) :
    (failureAnswer notes runs f).Fails f code runs := by
  have hreport : f.report? = some { kind, message := f.message, stderr := f.stderr } := by
    rw [Failure.report?, hkind]
  have hline : shownLine ("Error: " ++ f.message) =
      "Error: " ++ (Text.dropSequences f.message ++ ['\n']) := by
    rw [shownLine_error, shownLine_eq]
  rw [failureAnswer, hreport]
  exact ⟨hcode, rfl, ⟨notes, congrArg (notesText notes ++ ·) hline⟩, rfl⟩

theorem report?_ne_none_of_answer {f : Failure} {runs : List Run}
    (h : (failureAnswer notes runs f).escaped? = none) : f.report? ≠ none := by
  intro hnone
  rw [failureAnswer, hnone] at h
  exact Option.some_ne_none f h

theorem kind_untracked (h : q.stages? w = some st) {file : Path} {f : Failure}
    (hchecked : st.checked? = some (file, f)) : f.kind = .reported .userInput := by
  cases q with
  | history file' since? withTags json =>
    obtain rfl := Option.some.inj h
    obtain ⟨-, rfl⟩ := Prod.mk.inj (Option.some.inj hchecked)
    rfl
  | annotate file' revision? json =>
    obtain rfl := Option.some.inj h
    obtain ⟨-, rfl⟩ := Prod.mk.inj (Option.some.inj hchecked)
    rfl
  | discover | info => exact nomatch h
  | _ =>
    obtain rfl := Option.some.inj h
    exact nomatch hchecked

theorem Misses.exists_kind {r : Repository} {f : Failure} (h : Misses r q f) :
    ∃ kind, f.kind = .reported kind ∧ kind.exitCode = 1 := by
  have hretrieval {f : Failure} (hf : f.IsRetrieval) :
      ∃ kind, f.kind = .reported kind ∧ kind.exitCode = 1 := by
    obtain ⟨kind, hkind, hmem⟩ := hf
    refine ⟨kind, hkind, ?_⟩
    cases kind with
    | retrieval | malformedOutput => rfl
    | _ => exact absurd hmem (by decide)
  cases h with
  | history hf => exact hretrieval hf
  | annotate hf => exact hretrieval hf
  | update _ hf => exact hretrieval hf
  | noContent => exact ⟨.general, rfl, rfl⟩

/-- A command that comes to its last stage ends by what that gives. -/
theorem ends_of_reaches {r : Repository} {s : Session} (h : q.stages? w = some st)
    (hreaches : st.Reaches w (q.settings config) r s)
    (hperform : (q.perform w config).runOn { notes } = (st.retrieve r).runOn s)
    (hescaped : (q.answer w config notes shown).escaped? = none) :
    Ends w (q.settings config) q st (q.answer w config notes shown) := by
  rcases hretrieve : (st.retrieve r).runOn s with ⟨f | stdout, s'⟩
  · rw [Request.answer_of_error (hperform.trans hretrieve)] at hescaped ⊢
    rcases misses_of_retrieve_error h hretrieve with hmisses | ⟨hcannot, rfl⟩ | hunreported
    · obtain ⟨kind, hkind, hcode⟩ := hmisses.exists_kind
      exact .missed r s s' f hreaches hretrieve hmisses (failureAnswer_fails kind hkind hcode _)
    · obtain ⟨hbackend, ⟨root, rfl⟩, rfl⟩ := hcannot
      obtain rfl := Option.some.inj h
      have hruns : s'.runs = r.checks w none := hreaches.session.runs
      rw [hruns]
      exact .cannotUpdate r s' .cannotUpdate hreaches ⟨hbackend, ⟨root, rfl⟩, rfl⟩
        (failureAnswer_fails .unsupported rfl rfl _)
    · exact absurd hunreported (report?_ne_none_of_answer hescaped)
  · rw [Request.answer_of_ok (hperform.trans hretrieve)]
    exact .shown r s s' stdout hreaches hretrieve rfl rfl rfl

/-- A command whose tool works ends by what the check of a file gives, or in its last stage. -/
theorem ends_of_works {found : Found} {s : Session} (h : q.stages? w = some st)
    (hfind : st.find w (q.settings config) = .ok (some found)) (hworks : found.repository.Works w)
    (hs : found.repository.Checked w none s)
    (hholding : (holding w (q.settings config) st.place).runOn { notes } = (.ok found.repository, s))
    (hescaped : (q.answer w config notes shown).escaped? = none) :
    Ends w (q.settings config) q st (q.answer w config notes shown) := by
  have hperform := (congrArg (Work.runOn · { notes }) (Request.perform_eq h)).trans
    (Work.runOn_bind_of_ok hholding)
  cases hchecked : st.checked? with
  | none =>
    rw [hchecked] at hperform
    refine ends_of_reaches h ⟨⟨found, hfind, rfl⟩, hworks, ?_, ?_⟩ hperform hescaped
    · rw [hchecked]
      exact nofun
    · rw [hchecked]
      exact hs
  | some checked =>
    obtain ⟨file, f⟩ := checked
    rw [hchecked] at hperform
    rcases Repository.runOn_isTracked hs file with
      ⟨-, fault, hrejected⟩ | ⟨tracked, s', htracks, hs', hrun⟩
    · have hfails := hperform.trans (Work.runOn_bind_of_error (Prod.ext hrejected rfl) _)
      rw [Request.answer_of_error hfails] at hescaped
      exact absurd (report?_badCommand fault) (report?_ne_none_of_answer hescaped)
    have hperform := hperform.trans (Work.runOn_bind_of_ok hrun)
    cases tracked with
    | true =>
      refine ends_of_reaches h ⟨⟨found, hfind, rfl⟩, hworks, ?_, ?_⟩ hperform hescaped
      · rw [hchecked]
        rintro file' f' hsame
        obtain ⟨rfl, rfl⟩ := Prod.mk.inj (Option.some.inj hsame)
        exact htracks.1 rfl
      · rw [hchecked]
        exact hs'
    | false =>
      have huntracked : ¬found.repository.Tracks w file := fun htracked => nomatch htracks.2 htracked
      rw [Request.answer_of_error hperform]
      exact .untracked found file f hfind hworks hchecked huntracked
        (hs'.runs ▸ failureAnswer_fails .userInput (kind_untracked h hchecked) rfl _)

theorem answer_ends (h : q.stages? w = some st)
    (hescaped : (q.answer w config notes shown).escaped? = none) :
    Ends w (q.settings config) q st (q.answer w config notes shown) := by
  cases hfind : st.find w (q.settings config) with
  | error fault =>
    have hperform := runOn_perform_of_find_error (s := { notes }) hfind
    rw [← Request.perform_eq h] at hperform
    rw [Request.answer_of_error hperform] at hescaped
    have hunreported : (Failure.badPath fault).report? = none := by cases fault <;> rfl
    exact absurd hunreported (report?_ne_none_of_answer hescaped)
  | ok found? =>
  cases found? with
  | none =>
    have hperform := runOn_perform_of_outside (s := { notes }) hfind
    rw [← Request.perform_eq h] at hperform
    rw [Request.answer_of_error hperform]
    exact .outside hfind (failureAnswer_fails .userInput rfl rfl _)
  | some found =>
  have hfails {f : Failure} {s : Session}
      (hholding : (holding w (q.settings config) st.place).runOn { notes } = (.error f, s)) :
      q.answer w config notes shown = failureAnswer (s.notes.filter shown) s.runs f := by
    refine Request.answer_of_error ?_
    rw [Request.perform_eq h]
    exact Work.runOn_bind_of_error hholding _
  cases hstatus : found.repository.foundStatus w {} with
  | error fault =>
    obtain ⟨s, hholding⟩ := holding_of_rejected notes hfind hstatus
    rw [hfails hholding] at hescaped
    exact absurd (report?_badCommand fault) (report?_ne_none_of_answer hescaped)
  | ok status =>
    obtain ⟨s, hs, hholding⟩ := holding_of_found notes hfind hstatus
    have hworks : found.repository.Works w ↔ status.working = true := found.repository.works_iff w hstatus
    by_cases hworking : status.working = true
    · rw [if_pos hworking] at hholding
      exact ends_of_works h hfind (hworks.2 hworking) hs hholding hescaped
    · rw [if_neg hworking] at hholding
      rw [hfails hholding]
      exact .unavailable found hfind (mt hworks.1 hworking)
        (hs.runs ▸ failureAnswer_fails .notReady rfl rfl _)

end Answering

/-! ## Invocations -/

/-- An invocation comes to a request, with the settings for it. -/
def ComesTo (w : World) (args : List Text) (config : Config) (q : Request) : Prop :=
  ∃ o verb notes, Opening.read w.files args = .ok o ∧ o.verb = .ok verb ∧
    Config.load w.files w.environment w.homes o.configPath? = .ok (config, notes) ∧
    verb.read w.files o.args = .ok q

theorem ComesTo.exists_answer {w : World} {args : List Text} {config : Config} {q : Request}
    (h : ComesTo w args config q) : ∃ notes shown, invoke w args = q.answer w config notes shown := by
  obtain ⟨o, verb, notes, hread, hverb, hload, hrequest⟩ := h
  refine ⟨notes, fun n => o.verbose || n.isGrave, ?_⟩
  simp only [invoke, opening_eq hread hverb, hload, hrequest]

theorem Ends.of_exitCode_ne_zero {w : World} {config : Config} {q : Request} {st : Stages} {a : Answer}
    (h : Ends w config q st a) (hcode : a.exitCode ≠ 0) : ∃ f code, a.Fails f code a.runs := by
  have hfails {f : Failure} {code : Int} {runs : List Run} (h : a.Fails f code runs) :
      ∃ f code, a.Fails f code a.runs := ⟨f, code, h.exitCode, h.stdout, h.stderr, rfl⟩
  cases h with
  | outside _ h => exact hfails h
  | unavailable _ _ _ h => exact hfails h
  | untracked _ _ _ _ _ _ _ h => exact hfails h
  | cannotUpdate _ _ _ _ _ h => exact hfails h
  | missed _ _ _ _ _ _ _ h => exact hfails h
  | shown _ _ _ _ _ _ hzero => exact absurd hzero hcode

/-- **The stages of an invocation.** An invocation that comes to a request for one repository and from
which no failure escapes ends by the first stage that fails, with nothing written to standard output but
a line about the failure to standard error; and if no stage fails, what is written is all that is made of
the last one. -/
theorem invoke_stages (w : World) (args : List Text) (config : Config) (q : Request) (st : Stages)
    (hcomes : ComesTo w args config q) (hst : q.stages? w = some st)
    (hescaped : (invoke w args).escaped? = none) :
    let a := invoke w args
    Ends w (q.settings config) q st a ∧
      (a.exitCode ≠ 0 → a.stdout = [] ∧ ∃ notes message,
        a.stderr = notesText notes ++ ("Error: " ++ (message ++ ['\n']))) := by
  intro a
  have hends : Ends w (q.settings config) q st a := by
    obtain ⟨notes, shown, hanswer⟩ := hcomes.exists_answer
    simp only [a, hanswer] at hescaped ⊢
    exact answer_ends hst hescaped
  refine ⟨hends, fun hcode => ?_⟩
  obtain ⟨f, code, hfails⟩ := hends.of_exitCode_ne_zero hcode
  obtain ⟨notes, hstderr⟩ := hfails.stderr
  exact ⟨hfails.stdout, notes, _, hstderr⟩

/-- A world with one file, where BitKeeper tracks a name and traces a line with a text. -/
def tracedWorld (tracked text : Text) : World where
  environment := [("HOME", "/h")]
  files := { top := .dir ".bk" .nil (.file "f" [] .nil) }
  outcome runs _ :=
    let printed : Text :=
      match runs.length with
      | 0 => "BitKeeper version is bk-7.3\n"
      | 1 => tracked ++ ['\n']
      | _ => "jas\t1.1\t" ++ text ++ ['\n']
    .exits { stdout := Utf8.encode printed }

def tracedSettings : Config := { path? := some (.ofText "/h/.config/repohist/config") }

def tracedRequest : Request := .annotate (.ofText "f") none false

theorem comesTo_tracedRequest (tracked text : Text) :
    ComesTo (tracedWorld tracked text) ["annotate", "f"] tracedSettings tracedRequest :=
  ⟨⟨false, none, "annotate", ["f"]⟩, .annotate, _, by rfl, by rfl, by rfl, by rfl⟩

/-- A file that is not tracked. -/
theorem invoke_stages_of_untracked :
    let w := tracedWorld "g" "x"
    let a := invoke w ["annotate", "f"]
    ∃ st, ComesTo w ["annotate", "f"] tracedSettings tracedRequest ∧
      tracedRequest.stages? w = some st ∧ a.escaped? = none ∧
      Ends w tracedSettings tracedRequest st a ∧ a.exitCode = 5 ∧ a.stdout = [] := by
  intro w a
  obtain ⟨st, hst⟩ : ∃ st, tracedRequest.stages? w = some st := ⟨_, rfl⟩
  have hcomes : ComesTo w ["annotate", "f"] tracedSettings tracedRequest := comesTo_tracedRequest _ _
  have hanswer : a.escaped? = none ∧ a.exitCode = 5 := by decide +kernel
  obtain ⟨hescaped, hcode⟩ := hanswer
  obtain ⟨hends, hfails⟩ := invoke_stages w ["annotate", "f"] _ _ st hcomes hst hescaped
  refine ⟨st, hcomes, hst, hescaped, hends, hcode, (hfails ?_).1⟩
  rw [hcode]
  decide

def tracedRepository : Repository := ⟨.bitkeeper, .root, tracedSettings⟩

theorem reaches_tracedRequest (text : Text) {st : Stages}
    (hst : tracedRequest.stages? (tracedWorld "f" text) = some st) :
    ∃ s, st.Reaches (tracedWorld "f" text) tracedSettings tracedRepository s := by
  obtain rfl := Option.some.inj hst
  obtain ⟨status, hstatus⟩ : ∃ status, tracedRepository.foundStatus (tracedWorld "f" text) {} = .ok status :=
    ⟨_, by rfl⟩
  obtain ⟨s₁, hs₁, -⟩ := tracedRepository.isAvailable_of_found (tracedWorld "f" text) hstatus []
  have hworks : tracedRepository.Works (tracedWorld "f" text) := ⟨_, by rfl⟩
  have htracks : tracedRepository.Tracks (tracedWorld "f" text) (.ofText "f") := ⟨_, by rfl⟩
  obtain ⟨-, s, -, hs, -⟩ :=
    (Repository.runOn_isTracked hs₁ (.ofText "f")).resolve_left fun ⟨huntracked, _⟩ => huntracked htracks
  refine ⟨s, ⟨⟨"bitkeeper", tracedRepository, "bitkeeper"⟩, by rfl, rfl⟩, hworks, ?_, hs⟩
  rintro file f hchecked
  obtain ⟨rfl, -⟩ := Prod.mk.inj (Option.some.inj hchecked)
  exact htracks

/-- A control sequence in a line of a file is missing from the annotation that is written, though no
stage fails. -/
theorem not_shown_whole :
    let w := tracedWorld "f" "\x1b[31mred"
    let a := invoke w ["annotate", "f"]
    let traced : Annotation := ⟨"f", [⟨1, "1.1", "jas", "\x1b[31mred"⟩]⟩
    ComesTo w ["annotate", "f"] tracedSettings tracedRequest ∧ a.escaped? = none ∧ a.exitCode = 0 ∧
      ∃ st r s s', tracedRequest.stages? w = some st ∧ st.Reaches w tracedSettings r s ∧
        (r.annotate w (.ofText "f") none).runOn s = (.ok traced, s') ∧
        a.stdout ≠ Utf8.encode (traced.plain ++ ['\n']) := by
  intro w a traced
  have hanswer : a.escaped? = none ∧ a.exitCode = 0 ∧
      a.stdout ≠ Utf8.encode (traced.plain ++ ['\n']) := by decide +kernel
  obtain ⟨hescaped, hcode, hstdout⟩ := hanswer
  obtain ⟨st, hst⟩ : ∃ st, tracedRequest.stages? w = some st := ⟨_, rfl⟩
  obtain ⟨s, hreaches⟩ := reaches_tracedRequest "\x1b[31mred" hst
  have hfile : w.files.resolve (.ofText "f") = .ok (.ofText "/f") := by rfl
  have hannotate : ((tracedRepository.annotate w (.ofText "f") none).runOn s).1 = .ok traced := by
    obtain rfl := Option.some.inj hst
    rw [Repository.answer_annotate hfile, hreaches.session.runs]
    rfl
  exact ⟨comesTo_tracedRequest _ _, hescaped, hcode, st, tracedRepository, s, _, hst, hreaches,
    Prod.ext hannotate rfl, hstdout⟩

end Cli

end Annals

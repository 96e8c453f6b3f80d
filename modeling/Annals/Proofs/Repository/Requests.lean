import Annals.Proofs.Repository.Tags

/-!
# Requests in a session

Whatever is asked of a repository, its session changes in two ways only. Quietly (`Quiet`): notes are
made, the tool is run for something that is not remembered, and it is asked for its version if its state is
not known. Or by a listing of tags (`Lists`), whose result goes to the cell for tags. `handled_after` says
which request does what.
-/

namespace Annals

/-- What can be asked of a repository. -/
inductive Request where
  | capabilities
  | command
  | availability
  | version
  | branch (dir? : Option Path)
  | parent (dir? : Option Path)
  | tracking (file : Path)
  | content (dir : Path) (name : Text) (revision? : Option Text)
  | history (file : Path) (since? : Option Text)
  | annotate (file : Path) (revision? : Option Text)
  | tagList
  | newTagList (dir? : Option Path)
  | update
  deriving DecidableEq

/-- A request, and what surrounds the program by then. -/
structure Step where
  world : World
  request : Request

namespace Step

/-- The names and revisions that a request hands on to the tool. -/
def given (step : Step) : List Text :=
  match step.request with
  | .tracking file => [(step.world.files.absolute file).name]
  | .content _ name revision? => name :: revision?.toList
  | .history file since? => (step.world.files.absolute file).name :: since?.toList
  | .annotate file revision? =>
    match step.world.files.resolve file with
    | .ok file => file.name :: revision?.toList
    | .error _ => []
  | _ => []

end Step

/-- The argument that makes a tool tell its version. -/
def versionFlag : Text := "--version"

/-- The argument that makes a tool list its tags. -/
def tagWord : Backend → Text
  | .bitkeeper => "tags"
  | .git => "for-each-ref"

namespace Run

def arguments (run : Run) : List Text := run.command.argv.tail

/-- Whether the tool was asked for its version: a file or a revision of that name comes later. -/
def asksVersion (run : Run) : Bool := run.arguments.head? = some versionFlag

/-- Whether the tool was asked for its tags. -/
def listsTags (b : Backend) (run : Run) : Bool := run.arguments.head? = some (tagWord b)

end Run

/-- What the listings of tags among some runs gave, in the world in which they were made. -/
def listings (b : Backend) (w : World) : List Run → List Run → List (Except Failure (List Tag))
  | _, [] => []
  | earlier, run :: later =>
    let rest := listings b w (earlier ++ [run]) later
    if run.listsTags b then b.listed run.command (w.outcome earlier run.command.argv) :: rest else rest

/-- The lists of tags that were made, without the listings that failed. -/
def completed (results : List (Except Failure (List Tag))) : List (List Tag) :=
  results.filterMap Except.toOption

namespace Repository

/-- The session after a request. -/
def after (r : Repository) (s : Session) (step : Step) : Session :=
  match step.request with
  | .capabilities => s
  | .command => ((r.command step.world).runOn s).2
  | .availability => ((r.isAvailable step.world).runOn s).2
  | .version => ((r.version step.world).runOn s).2
  | .branch dir? => ((r.branch step.world dir?).runOn s).2
  | .parent dir? => ((r.parent step.world dir?).runOn s).2
  | .tracking file => ((r.isTracked step.world file).runOn s).2
  | .content dir name revision? => ((r.content step.world dir name revision?).runOn s).2
  | .history file since? => ((r.history step.world file since?).runOn s).2
  | .annotate file revision? => ((r.annotate step.world file revision?).runOn s).2
  | .tagList => ((r.tagList step.world).runOn s).2
  | .newTagList dir? => ((r.rebuildTagList step.world dir?).runOn s).2
  | .update => ((r.update step.world).runOn s).2

/-- The session after some requests, from the first one on. -/
def session (r : Repository) (steps : List Step) : Session := steps.foldl r.after {}

@[simp] theorem session_concat (r : Repository) (steps : List Step) (step : Step) :
    r.session (steps ++ [step]) = r.after (r.session steps) step := by
  simp [session]

theorem session_append (r : Repository) (earlier later : List Step) :
    r.session (earlier ++ later) = later.foldl r.after (r.session earlier) := by
  simp [session]

/-- The runs that a request makes. -/
def newRuns (r : Repository) (s : Session) (step : Step) : List Run :=
  (r.after s step).runs.drop s.runs.length

/-- What the listings of tags gave that a request makes. -/
def listingsIn (r : Repository) (s : Session) (step : Step) : List (Except Failure (List Tag)) :=
  listings r.backend step.world s.runs (r.newRuns s step)

/-- What the listings of tags gave that some requests make, in order. -/
def listingsOf (r : Repository) : Session → List Step → List (Except Failure (List Tag))
  | _, [] => []
  | s, step :: later => r.listingsIn s step ++ listingsOf r (r.after s step) later

variable (r : Repository) (w : World)

/-! ## Quiet work -/

/-- Arguments for something that is not remembered, which name the flag for versions only if it was
given as a name or a revision. -/
structure Plain (b : Backend) (given args : List Text) : Prop where
  not_version : args.head? ≠ some versionFlag
  not_tags : args.head? ≠ some (tagWord b)
  mem_given : versionFlag ∈ args → versionFlag ∈ given

/-- Changes of a session that leave its list of tags alone. -/
inductive Quiet (given : List Text) : Session → Session → Prop
  | refl (s : Session) : Quiet given s s
  | note {s s' : Session} (notes : List Note) :
    Quiet given s s' → Quiet given s { s' with notes }
  | run {s s' : Session} {args : List Text} (run : Run) (notes : List Note) :
    Quiet given s s' → run.command.argv = r.executable w s' :: args → Plain r.backend given args →
      Quiet given s { r.knowing w s' with runs := s'.runs ++ [run], notes }
  | probe {s s' : Session} (notes : List Note) :
    Quiet given s s' → s'.status.value? = none →
      Quiet given s
        { r.knowing w s' with
          runs := s'.runs ++ [r.versionRun w s'],
          status := cellAfter s'.status (r.foundStatus w s'), notes }

/-- A listing of tags from a session in which the state of the tool is known: its result, and the session
after it. -/
def Lists (s : Session) (result : Except Failure (List Tag)) (s' : Session) : Prop :=
  ∃ status dir run notes, s.status.value? = some status ∧
    run.command = r.tagCommand w s status dir ∧
    result = r.backend.listed run.command (w.outcome s.runs run.command.argv) ∧
    s' = { r.knowing w s with runs := s.runs ++ [run], notes, tags := cellAfter s.tags result }

/-- An action that only makes notes once the executable is known. -/
def OnlyNotes {α : Type} (x : Work α) : Prop :=
  ∀ s : Session, s.command.value?.isSome → ∃ notes, (x.runOn s).2 = { s with notes }

namespace OnlyNotes

variable {α β : Type}

theorem pure (a : α) : OnlyNotes (Pure.pure a : Work α) := fun s _ => ⟨s.notes, rfl⟩

theorem throw (f : Failure) : OnlyNotes (MonadExcept.throw f : Work α) := fun s _ => ⟨s.notes, rfl⟩

theorem note (notes : List Note) : OnlyNotes (Work.note notes) := fun s _ => ⟨s.notes ++ notes, rfl⟩

theorem lift (x : Except Failure α) : OnlyNotes (liftM x : Work α) := by
  cases x with
  | error f => exact throw f
  | ok a => exact pure a

theorem bind {x : Work α} {g : α → Work β} (hx : OnlyNotes x) (hg : ∀ a, OnlyNotes (g a)) :
    OnlyNotes (x >>= g) := by
  intro s hknown
  obtain ⟨notes, hnotes⟩ := hx s hknown
  rw [Work.runOn_bind]
  rcases hrun : x.runOn s with ⟨f | a, s'⟩
  · rw [hrun] at hnotes
    exact ⟨notes, hnotes⟩
  · rw [hrun] at hnotes
    obtain rfl : s' = { s with notes } := hnotes
    exact hg a { s with notes } hknown

/-- The failure of the tool is told with the executable that was found out when it was run. -/
theorem refuse (task : Text) (args : List Text) (result : Result) :
    OnlyNotes (r.refuse w task args result : Work α) := by
  intro s hknown
  obtain ⟨tool, htool⟩ := Option.isSome_iff_exists.mp hknown
  have hsame : r.knowing w s = s := by
    obtain ⟨⟨value?⟩, status, tags, runs, notes⟩ := s
    obtain rfl : value? = some tool := htool
    rfl
  refine ⟨s.notes, ?_⟩
  rw [Repository.refuse, Work.runOn_bind_of_ok (r.runOn_command w s), hsame]
  rfl

end OnlyNotes

/-- The run of a command whose output is captured. -/
def captureRun (s : Session) (dir? : Option Path) (args : List Text) : Run :=
  ⟨r.toolCommand w s dir? args, .captured, true, false⟩

/-- An action that captures the output of the tool and makes notes about it adds one run. -/
theorem session_capture {α : Type} (s : Session) (dir? : Option Path) (args : List Text)
    {g : Except ProcessFailure Result → Work α} (hg : ∀ result, OnlyNotes (g result)) :
    ∃ notes, ((r.capture w dir? args >>= g).runOn s).2 =
      { r.knowing w s with runs := s.runs ++ [r.captureRun w s dir? args], notes } := by
  let c := r.toolCommand w s dir? args
  let out := c.capture (w.outcome s.runs c.argv)
  have hrun : out.run = r.captureRun w s dir? args := c.run_capture _
  have hcapture : (r.capture w dir? args).runOn s = (out.result.mapError .badCommand,
      { r.knowing w s with runs := s.runs ++ [out.run], notes := s.notes ++ out.notes }) :=
    r.runOn_capture w s dir? args
  rw [← hrun, Work.runOn_bind, hcapture]
  cases out.result with
  | error fault => exact ⟨s.notes ++ out.notes, rfl⟩
  | ok result => exact hg result { r.knowing w s with runs := s.runs ++ [out.run], notes := _ } rfl

namespace Quiet

variable {r w} {given : List Text} {s s' s'' : Session}

theorem trans (h : Quiet r w given s s') (h' : Quiet r w given s' s'') : Quiet r w given s s'' := by
  induction h' with
  | refl => exact h
  | note notes _ ih => exact .note notes ih
  | run run notes _ hargv hplain ih => exact .run run notes ih hargv hplain
  | probe notes _ hunknown ih => exact .probe notes ih hunknown

theorem tags (h : Quiet r w given s s') : s'.tags = s.tags := by
  induction h with
  | refl => rfl
  | note notes _ ih => exact ih
  | run run notes _ _ _ ih => exact ih
  | probe notes _ _ ih => exact ih

variable {α β σ : Type}

theorem of_onlyNotes {x : Work α} (hx : OnlyNotes x) (hknown : s.command.value?.isSome) :
    Quiet r w given s (x.runOn s).2 := by
  obtain ⟨notes, hnotes⟩ := hx s hknown
  rw [hnotes]
  exact .note notes (.refl s)

/-- Running the tool for something that is not remembered, and making notes about what it says. -/
theorem capture {dir? : Option Path} {args : List Text}
    {g : Except ProcessFailure Result → Work α} (hplain : Plain r.backend given args)
    (hg : ∀ result, OnlyNotes (g result)) :
    Quiet r w given s ((r.capture w dir? args >>= g).runOn s).2 := by
  obtain ⟨notes, hsession⟩ := r.session_capture w s dir? args hg
  rw [hsession]
  exact .run _ notes (.refl s) rfl hplain

theorem stream {dir? : Option Path} {args : List Text} {feed : σ → Text → Fed σ Failure} {init : σ}
    {g : σ × Except ProcessFailure Result → Work α} (hplain : Plain r.backend given args)
    (hg : ∀ result, OnlyNotes (g result)) :
    Quiet r w given s ((r.stream w dir? args feed init >>= g).runOn s).2 := by
  have hrun : Quiet r w given s ((r.stream w dir? args feed init).runOn s).2 := by
    rw [runOn_stream]
    exact .run _ _ (.refl s) (by rw [Command.command_run_stream]; rfl) hplain
  have hknown : ((r.stream w dir? args feed init).runOn s).2.command.value?.isSome := by
    rw [runOn_stream]
    rfl
  rw [Work.runOn_bind]
  rcases hstream : (r.stream w dir? args feed init).runOn s with ⟨f | a, s'⟩
  · rw [hstream] at hrun
    exact hrun
  · rw [hstream] at hrun hknown
    exact hrun.trans (of_onlyNotes (hg a) hknown)

end Quiet

/-! ## What each request asks of the tool -/

theorem head?_tagArgs (b : Backend) (format : Text) :
    (tagArgs b format).head? = some (tagWord b) := by
  cases b <;> rfl

section Arguments

variable {b : Backend} {given : List Text}

theorem Plain.cons {word : Text} {rest : List Text} (hversion : word ≠ versionFlag)
    (htags : word ≠ tagWord b) (hrest : versionFlag ∈ rest → versionFlag ∈ given) :
    Plain b given (word :: rest) where
  not_version h := hversion (Option.some.inj h)
  not_tags h := htags (Option.some.inj h)
  mem_given h := (List.mem_cons.mp h).elim (fun h => absurd h.symm hversion) hrest

theorem plain_parentArgs : Plain b given (parentArgs b) := by
  cases b <;> exact .cons (by decide) (by decide) fun h => absurd h (by decide)

/-- A flag that a revision is written behind is not the one for versions. -/
theorem versionFlag_ne_revision (v : Text) : versionFlag ≠ "-r" ++ v := nofun

theorem mem_name_of_mem {name : Text} {rest : List Text} (h : versionFlag ∈ [name]) :
    versionFlag ∈ name :: rest := by
  rw [List.mem_singleton.mp h]
  exact List.mem_cons_self

/-- The arguments that ask whether a file is tracked. -/
def trackingArgs (b : Backend) (name : Text) : List Text :=
  match b with
  | .bitkeeper => ["files", name]
  | .git => ["ls-files", "--error-unmatch", "--", name]

theorem plain_trackingArgs (name : Text) : Plain b [name] (trackingArgs b name) := by
  cases b with
  | bitkeeper => exact .cons (by decide) (by decide) id
  | git =>
    refine .cons (by decide) (by decide) fun h => ?_
    have h := List.mem_of_ne_of_mem (by decide) h
    exact List.mem_of_ne_of_mem (by decide) h

theorem plain_contentArgs (name : Text) (revision? : Option Text) :
    Plain b (name :: revision?.toList) (contentArgs b name revision?) := by
  cases b with
  | bitkeeper =>
    refine .cons (by decide) (by decide) fun h => mem_name_of_mem ?_
    have h : versionFlag ∈ _ := List.mem_of_ne_of_mem (by decide) h
    rcases revision? with _ | v
    · exact h
    · exact List.mem_of_ne_of_mem (versionFlag_ne_revision v) h
  | git =>
    refine .cons (by decide) (by decide) fun h => ?_
    have hcolon : ':' ∈ ((revision?.bind Text.nonEmpty?).getD "HEAD") ++ ":./" ++ name := by simp
    exact absurd (List.mem_singleton.mp h)
      (ne_of_mem_of_not_mem' hcolon (by decide : ':' ∉ versionFlag)).symm

theorem plain_historyArgs (name : Text) (since? : Option Text) :
    Plain b (name :: since?.toList) (historyArgs b name since?) := by
  cases b with
  | bitkeeper =>
    refine .cons (by decide) (by decide) fun h => mem_name_of_mem ?_
    have hformat : versionFlag ≠ "-d" ++ bitkeeperLogFormat := nofun
    rcases since? with _ | v
    · exact List.mem_of_ne_of_mem hformat h
    · have hsince : versionFlag ≠ "-r" ++ v ++ ".." := nofun
      exact List.mem_of_ne_of_mem hformat (List.mem_of_ne_of_mem hsince h)
  | git =>
    refine .cons (by decide) (by decide) fun h => mem_name_of_mem ?_
    have h := List.mem_of_ne_of_mem (by decide) h
    have h := List.mem_of_ne_of_mem (by decide) h
    have h := List.mem_of_ne_of_mem (nofun : versionFlag ≠ "--pretty=format:" ++ gitLogFormat) h
    rcases since? with _ | v
    · exact List.mem_of_ne_of_mem (by decide) h
    · have hletter : 'H' ∈ v ++ "..HEAD" := by simp
      have hrange : versionFlag ≠ v ++ "..HEAD" :=
        (ne_of_mem_of_not_mem' hletter (by decide : 'H' ∉ versionFlag)).symm
      have h := List.mem_of_ne_of_mem hrange h
      exact List.mem_of_ne_of_mem (by decide) h

theorem plain_annotationArgs (name : Text) (revision? : Option Text) :
    Plain b (name :: revision?.toList) (annotationArgs b name revision?) := by
  cases b with
  | bitkeeper =>
    refine .cons (by decide) (by decide) fun h => mem_name_of_mem ?_
    have h := List.mem_of_ne_of_mem (by decide) h
    rcases revision? with _ | v
    · exact h
    · exact List.mem_of_ne_of_mem (versionFlag_ne_revision v) h
  | git =>
    refine .cons (by decide) (by decide) fun h => ?_
    have h := List.mem_of_ne_of_mem (by decide) h
    rcases List.mem_append.mp h with h | h
    · exact List.mem_cons_of_mem name h
    · exact mem_name_of_mem (List.mem_of_ne_of_mem (by decide) h)

end Arguments

/-! ## What each request does -/

theorem onlyNotes_debug (text : Text) : OnlyNotes (r.debug text) := .note _

theorem onlyNotes_complain (text : Text) : OnlyNotes (r.complain text) := .note _

theorem OnlyNotes.ite {α : Type} {p : Prop} [Decidable p] {x y : Work α} (hx : OnlyNotes x)
    (hy : OnlyNotes y) : OnlyNotes (if p then x else y) := by
  split
  · exact hx
  · exact hy

section Answers

variable {s : Session} {given : List Text}

theorem quiet_probed : Quiet r w given s (r.probed w s) := by
  unfold probed
  cases h : s.status.value? with
  | some status =>
    rw [r.runOn_status_of_some w s h]
    exact .refl s
  | none =>
    obtain ⟨notes, -, hrun⟩ := r.runOn_status_of_none w s h
    rw [hrun]
    exact .probe _ (.refl s) h

/-- What is told of the tool is told from its state. -/
theorem runOn_map_status {α : Type} (f : ToolStatus → α) (s : Session) :
    Work.runOn (do return f (← r.status w)) s =
      (((r.knownStatus w s).map f).mapError .badCommand, r.probed w s) := by
  have hrun := r.runOn_status w s
  cases hstatus : r.knownStatus w s with
  | error fault =>
    rw [hstatus] at hrun
    exact Work.runOn_bind_of_error hrun _
  | ok status =>
    rw [hstatus] at hrun
    exact Work.runOn_bind_of_ok hrun

theorem runOn_isAvailable (s : Session) : (r.isAvailable w).runOn s =
    (((r.knownStatus w s).map (·.working)).mapError .badCommand, r.probed w s) :=
  r.runOn_map_status w _ s

theorem runOn_version (s : Session) : (r.version w).runOn s =
    (((r.knownStatus w s).map (·.version)).mapError .badCommand, r.probed w s) :=
  r.runOn_map_status w _ s

theorem after_availability (s : Session) : r.after s ⟨w, .availability⟩ = r.probed w s := by
  rw [after, runOn_isAvailable]

theorem after_version (s : Session) : r.after s ⟨w, .version⟩ = r.probed w s := by
  rw [after, runOn_version]

theorem quiet_branch (dir? : Option Path) : Quiet r w given s ((r.branch w dir?).runOn s).2 := by
  unfold branch
  split
  · exact .refl s
  · have hplain : Plain r.backend given ["rev-parse", "--abbrev-ref", "HEAD"] :=
      .cons (by decide) (by cases r.backend <;> decide) fun h => absurd h (by decide)
    refine Quiet.capture hplain fun result => ?_
    rcases result with cause | result
    · exact .throw _
    · exact .ite (.refuse r w _ _ result) (.pure _)

theorem quiet_parent (dir? : Option Path) : Quiet r w given s ((r.parent w dir?).runOn s).2 := by
  refine Quiet.capture plain_parentArgs fun result => ?_
  rcases result with cause | result
  · exact .throw _
  · exact .ite (.pure _) (.ite (.pure _) (.refuse r w _ _ result))

/-- The run that asks whether a file is tracked. -/
def trackingRun (s : Session) (file : Path) : Run :=
  let file := w.files.absolute file
  r.captureRun w s (some file.parent) (trackingArgs r.backend file.name)

theorem session_isTracked (s : Session) (file : Path) :
    ∃ notes, ((r.isTracked w file).runOn s).2 =
      { r.knowing w s with runs := s.runs ++ [r.trackingRun w s file], notes } := by
  apply r.session_capture w s
  have hfailed (text : Text) : OnlyNotes (do r.complain text; return false : Work Bool) :=
    .bind (r.onlyNotes_complain text) fun _ => .pure false
  rintro (cause | result)
  · exact hfailed _
  · cases r.backend with
    | bitkeeper => exact .ite (.pure _) (hfailed _)
    | git =>
      exact .ite (.pure _) (.ite (.bind (r.onlyNotes_debug _) fun _ => .pure _) (hfailed _))

theorem quiet_isTracked (file : Path) :
    Quiet r w [(w.files.absolute file).name] s ((r.isTracked w file).runOn s).2 := by
  obtain ⟨notes, hsession⟩ := r.session_isTracked w s file
  rw [hsession]
  exact .run _ notes (.refl s) rfl (plain_trackingArgs _)

theorem quiet_content (dir : Path) (name : Text) (revision? : Option Text) :
    Quiet r w (name :: revision?.toList) s ((r.content w dir name revision?).runOn s).2 := by
  refine Quiet.capture (plain_contentArgs name revision?) fun result => ?_
  have hfailed (text : Text) : OnlyNotes (do r.complain text; return none : Work (Option Bytes)) :=
    .bind (r.onlyNotes_complain text) fun _ => .pure none
  rcases result with cause | result
  · exact hfailed _
  · exact .ite (.pure _) (hfailed _)

theorem quiet_update : Quiet r w given s ((r.update w).runOn s).2 := by
  unfold update
  split
  · exact .refl s
  · have hplain : Plain r.backend given ["pull", "--ff-only"] :=
      .cons (by decide) (by cases r.backend <;> decide) fun h => absurd h (by decide)
    refine Quiet.capture hplain fun result => ?_
    rcases result with cause | result
    · exact .throw _
    · exact .ite (.refuse r w _ _ result) (r.onlyNotes_debug _)

theorem quiet_readHistory {π : Type} (F : HistoryFormat π) (file : Path) (since? : Option Text) :
    Quiet r w (file.name :: since?.toList) s ((r.readHistory w F file since?).runOn s).2 := by
  refine Quiet.stream (plain_historyArgs file.name since?) fun (reader, result) => ?_
  rcases result with cause | result
  · exact .throw _
  · exact .ite (.refuse r w _ _ result)
      (.bind (.note _) fun _ => .bind (r.onlyNotes_debug _) fun _ => .pure _)

theorem quiet_annotate (file : Path) (revision? : Option Text) :
    Quiet r w (Step.given ⟨w, .annotate file revision?⟩) s
      ((r.annotate w file revision?).runOn s).2 := by
  cases hfile : w.files.resolve file with
  | error fault =>
    rw [annotate, Work.runOn_lookUp_bind_of_error hfile]
    exact .refl s
  | ok full =>
    have hplain : Plain r.backend (Step.given ⟨w, .annotate file revision?⟩)
        (annotationArgs r.backend full.name revision?) := by
      simp only [Step.given, hfile]
      exact plain_annotationArgs full.name revision?
    rw [annotate, Work.runOn_lookUp_bind_of_ok hfile]
    obtain ⟨backend, root, config⟩ := r
    cases backend with
    | bitkeeper =>
      apply Quiet.stream hplain
      rintro ⟨reader, cause | result⟩
      · exact .bind (.throw _) fun _ => .pure _
      · exact .bind (.ite (.refuse _ w _ _ result) (.pure _)) fun _ => .pure _
    | git =>
      apply Quiet.stream hplain
      rintro ⟨reader, cause | result⟩
      · exact .bind (.throw _) fun _ => .lift _
      · exact .bind (.ite (.refuse _ w _ _ result) (.pure _)) fun _ => .lift _

end Answers

/-! ## Listings in a session -/

/-- Whether a request may have the tags listed. -/
def wantsTags (request : Request) : Bool :=
  match request with
  | .tagList => true
  | .newTagList _ => true
  | .history _ _ => r.config.tagsEnabled && r.backend.capabilities.fileBasedTags
  | _ => false

/-- How a session changes on a request. A new list of tags is asked for quietly only if the tool cannot
be asked for its version. -/
inductive Handled (step : Step) (s s' : Session) : Prop
  | named : step.request = .command → s' = r.knowing step.world s → Handled step s s'
  | quiet : Quiet r step.world step.given s s' →
    (∀ dir?, step.request = .newTagList dir? → ∃ fault, r.knownStatus step.world s = .error fault) →
      Handled step s s'
  | listed (s₁ : Session) (result : Except Failure (List Tag)) :
    Quiet r step.world step.given s s₁ → Lists r step.world s₁ result s' →
      r.wantsTags step.request = true →
      ((∃ dir?, step.request = .newTagList dir?) ∨ s.tags.value? = none) →
      (∀ dir?, step.request = .newTagList dir? → ∃ status, r.knownStatus step.world s = .ok status) →
      Handled step s s'

variable (given : List Text) (s : Session)

/-- A listing is made quietly up to the command for it, and what it gives goes to the cell for tags. If the
tool cannot be asked for its version, there is no listing. -/
theorem lists_enumerateTags (dir : Path) :
    let out := (r.enumerateTags w dir).runOn s
    let s' := { out.2 with tags := cellAfter out.2.tags out.1 }
    (∃ fault, r.knownStatus w s = .error fault ∧ out = (.error (.badCommand fault), s') ∧
      Quiet r w given s s') ∨
      (∃ status, r.knownStatus w s = .ok status) ∧
        ∃ s₁, Quiet r w given s s₁ ∧ Lists r w s₁ out.1 s' := by
  cases hstatus : r.knownStatus w s with
  | error fault =>
    rw [r.runOn_enumerateTags_of_unknown w s hstatus]
    exact .inl ⟨fault, rfl, rfl, r.quiet_probed w⟩
  | ok status =>
    have hknown := (r.knownStatus_eq_ok_iff w s).mp hstatus
    obtain ⟨run, notes, hrun, hlist⟩ := r.runOn_enumerateTags w (r.probed w s) hknown dir
    rw [r.runOn_enumerateTags_of_known w s hstatus, hlist]
    refine .inr ⟨⟨status, rfl⟩, r.probed w s, r.quiet_probed w, status, dir, run, notes, hknown, hrun, ?_, rfl⟩
    rw [hrun]

theorem lists_rebuildTagList (dir? : Option Path) :
    let s' := ((r.rebuildTagList w dir?).runOn s).2
    (∃ fault, r.knownStatus w s = .error fault) ∧ Quiet r w given s s' ∨
      (∃ status, r.knownStatus w s = .ok status) ∧
        ∃ s₁ result, Quiet r w given s s₁ ∧ Lists r w s₁ result s' := by
  rw [runOn_rebuildTagList]
  rcases r.lists_enumerateTags w given s (dir?.getD r.root) with
    ⟨fault, hstatus, -, hquiet⟩ | ⟨hstatus, s₁, hquiet, hlists⟩
  · exact .inl ⟨⟨fault, hstatus⟩, hquiet⟩
  · exact .inr ⟨hstatus, s₁, _, hquiet, hlists⟩

theorem lists_tagList {s : Session} (h : s.tags.value? = none) :
    let out := (r.tagList w).runOn s
    (∃ fault, r.knownStatus w s = .error fault ∧ out.1 = .error (.badCommand fault)) ∧
        Quiet r w given s out.2 ∨
      ∃ s₁, Quiet r w given s s₁ ∧ Lists r w s₁ out.1 out.2 := by
  rw [runOn_tagList_of_none r w s h]
  rcases r.lists_enumerateTags w given s r.root with
    ⟨fault, hstatus, hout, hquiet⟩ | ⟨-, hlists⟩
  · exact .inl ⟨⟨fault, hstatus, congrArg Prod.fst hout⟩, hquiet⟩
  · exact .inr hlists

variable {s}

/-- A history that is read quietly gets its tags last, and they are only listed if there is no list. -/
theorem handled_tagged (file : Path) (since? : Option Text) {read : Work History}
    (hquiet : Quiet r w (Step.given ⟨w, .history file since?⟩) s (read.runOn s).2) :
    Handled r ⟨w, .history file since?⟩ s
      (Work.runOn (do
        let history ← read
        if r.config.tagsEnabled ∧ r.backend.capabilities.fileBasedTags then
          return history.assignTags (← r.tagList w)
        else return history) s).2 := by
  rcases hread : read.runOn s with ⟨f | h, s₁⟩
  · rw [hread] at hquiet
    rw [Work.runOn_bind_of_error hread]
    exact .quiet hquiet nofun
  rw [hread] at hquiet
  rw [Work.runOn_bind_of_ok hread]
  split
  next henabled =>
    have hwants : r.wantsTags (.history file since?) = true := by simpa [wantsTags] using henabled
    have hlast : ((do return h.assignTags (← r.tagList w) : Work History).runOn s₁).2 =
        ((r.tagList w).runOn s₁).2 := by
      rw [Work.runOn_bind]
      rcases (r.tagList w).runOn s₁ with ⟨f | tags, s₂⟩ <;> rfl
    rw [hlast]
    cases htags : s.tags.value? with
    | some tags =>
      rw [runOn_tagList_of_some r w s₁ (by rw [hquiet.tags, htags])]
      exact .quiet hquiet nofun
    | none =>
      rcases r.lists_tagList w _ (s := s₁) (by rw [hquiet.tags, htags]) with
        ⟨-, hquiet'⟩ | ⟨s₂, hquiet', hlists⟩
      · exact .quiet (hquiet.trans hquiet') nofun
      · exact .listed s₂ _ (hquiet.trans hquiet') hlists hwants (.inr htags) nofun
  next => exact .quiet hquiet nofun

theorem handled_history (file : Path) (since? : Option Text) :
    Handled r ⟨w, .history file since?⟩ s ((r.history w file since?).runOn s).2 := by
  obtain ⟨backend, root, config⟩ := r
  cases backend with
  | bitkeeper => exact handled_tagged _ w file since? (quiet_readHistory _ w BitKeeper.logFormat _ since?)
  | git => exact handled_tagged _ w file since? (quiet_readHistory _ w Git.logFormat _ since?)

theorem handled_after (s : Session) (step : Step) : Handled r step s (r.after s step) := by
  obtain ⟨w, request⟩ := step
  cases request with
  | capabilities => exact .quiet (.refl s) nofun
  | command => exact .named rfl (by rw [after, runOn_command])
  | availability => exact .quiet (r.after_availability w s ▸ r.quiet_probed w) nofun
  | version => exact .quiet (r.after_version w s ▸ r.quiet_probed w) nofun
  | branch dir? => exact .quiet (r.quiet_branch w dir?) nofun
  | parent dir? => exact .quiet (r.quiet_parent w dir?) nofun
  | tracking file => exact .quiet (r.quiet_isTracked w file) nofun
  | content dir name revision? => exact .quiet (r.quiet_content w dir name revision?) nofun
  | history file since? => exact r.handled_history w file since?
  | annotate file revision? => exact .quiet (r.quiet_annotate w file revision?) nofun
  | tagList =>
    cases h : s.tags.value? with
    | some tags => exact .quiet (by rw [after, runOn_tagList_of_some r _ s h]; exact .refl s) nofun
    | none =>
      rcases r.lists_tagList w _ h with ⟨-, hquiet⟩ | ⟨s₁, hquiet, hlists⟩
      · exact .quiet hquiet nofun
      · exact .listed s₁ _ hquiet hlists rfl (.inr h) nofun
  | newTagList dir? =>
    rcases r.lists_rebuildTagList w _ s dir? with ⟨hstatus, hquiet⟩ | ⟨hstatus, s₁, result, hquiet, hlists⟩
    · exact .quiet hquiet fun _ _ => hstatus
    · exact .listed s₁ result hquiet hlists rfl (.inl ⟨dir?, rfl⟩) fun _ _ => hstatus
  | update => exact .quiet (r.quiet_update w) nofun

end Repository

end Annals

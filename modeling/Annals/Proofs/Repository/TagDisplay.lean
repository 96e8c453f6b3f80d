import Annals.Proofs.History.Tagging
import Annals.Proofs.Repository.Memory
import Annals.Proofs.Repository.Tasks

/-!
# Histories apart from their tags

What is read of a log does not depend on tags: not on whether they are shown, on the list that is kept of
them, or on how the commands end that are run for them. So two settings that are otherwise the same
(`Setting.SameButTags`) give the same history but for its tags, or fail in the same way, if no date in a
listing of tags is out of range, unless a command is rejected for the tags of one and not of the other
(`history_ignores_tags`, `not_ignores_tags`).
-/

namespace Annals

/-- The history without its tags. -/
def History.untagged (h : History) : History := h.map (·.withTags [])

theorem History.untagged_assignTags (h : History) (tags : List Tag) :
    History.untagged (h.assignTags tags) = History.untagged h := by
  rw [assignTags_eq_map, untagged, untagged, List.map_map]
  exact List.map_congr_left fun e _ => rfl

namespace Repository

/-- Where a history is asked for. -/
structure Setting where
  repository : Repository
  world : World
  session : Session

namespace Setting

variable (i j : Setting) (file : Path) (since? : Option Text)

def history : Except Failure History :=
  ((i.repository.history i.world file since?).runOn i.session).1

/-- The runs that are made for the history. -/
def historyRuns : List Run :=
  i.repository.newRuns i.session ⟨i.world, .history file since?⟩

/-- The log that is read. -/
def logTask : Task := i.repository.historyTask i.world i.session file since?

/-- What becomes of the log. -/
def logOutcome : Outcome := i.world.outcome i.session.runs (i.logTask file since?).command.argv

/-- Whether settings differ in nothing that a log depends on: only in whether tags are shown, in what is
known of the tool and of its tags, and in what becomes of other commands than the log. -/
structure SameButTags : Prop where
  repository : i.repository = { j.repository with
    config := { j.repository.config with tagsEnabled := i.repository.config.tagsEnabled } }
  environment : i.world.environment = j.world.environment
  files : i.world.files = j.world.files
  command : i.session.command = j.session.command
  log : i.logOutcome file since? = j.logOutcome file since?

/-- Whether no date is out of range in the listing of tags that is made for the history, if one is. -/
def TagsInRange : Prop :=
  let r := i.repository
  let s := r.probed i.world (r.logged i.world i.session file since?)
  r.config.tagsEnabled = true → i.session.tags.value? = none →
    ∀ status e, s.status.value? = some status →
      (i.world.outcome s.runs (r.tagCommand i.world s status r.root).argv).Prints e →
        ∀ line ∈ textLines e.stdout, ¬r.backend.TagOverflows line

/-- Whether there is no list of tags for the history, although it is to have tags, since a command is
rejected. -/
def Unlisted (fault : CommandFault) : Prop :=
  let r := i.repository
  r.config.tagsEnabled = true ∧ i.session.tags.value? = none ∧
    r.CannotList i.world (r.logged i.world i.session file since?) r.root fault

/-- Whether a history fails in the same way in two settings, or is the same but for its tags. -/
def Agrees : Prop :=
  (∃ f, i.history file since? = .error f ∧ j.history file since? = .error f) ∨
    ∃ history history', i.history file since? = .ok history ∧ j.history file since? = .ok history' ∧
      history.untagged = history'.untagged

variable {i j file since?}

/-- The log is asked for in the same way. -/
theorem SameButTags.logTask_eq (h : SameButTags i j file since?) :
    i.logTask file since? = j.logTask file since? := by
  obtain ⟨r, ⟨environment, files, homes, outcome⟩, ⟨command, status, tags, runs, notes⟩⟩ := i
  obtain ⟨r', ⟨environment', files', homes', outcome'⟩, ⟨command', status', tags', runs', notes'⟩⟩ := j
  obtain ⟨hrepository, henvironment, hfiles, hcommand, -⟩ := h
  simp only at hrepository henvironment hfiles hcommand
  generalize r.config.tagsEnabled = shown at hrepository
  subst hrepository henvironment hfiles hcommand
  rfl

/-- Without a log there is no history, and tags are not asked for. -/
theorem history_of_error {f : Failure}
    (h : (i.logTask file since?).settle (i.logOutcome file since?) = .error f) :
    i.history file since? = .error f ∧
      ∀ run ∈ i.historyRuns file since?, run.listsTags i.repository.backend = false := by
  have hrun := runOn_history_of_error h
  refine ⟨congrArg Prod.fst hrun, fun run hmem => ?_⟩
  have hquiet := i.repository.quiet_readHistory i.world (s := i.session) i.repository.backend.logFormat
    (i.world.files.absolute file) since?
  obtain ⟨runs, hruns, hall⟩ := hquiet.runs
  have hafter : (i.repository.after i.session ⟨i.world, .history file since?⟩).runs =
      i.session.runs ++ runs := (congrArg (·.2.runs) hrun).trans hruns
  rw [historyRuns, newRuns_eq hafter] at hmem
  exact (hall run hmem).1

/-- Reading the log leaves the list of tags as it is. -/
theorem tags_logged : (i.repository.logged i.world i.session file since?).tags = i.session.tags :=
  (i.repository.quiet_readHistory i.world (s := i.session) i.repository.backend.logFormat
    (i.world.files.absolute file) since?).tags

/-- With a log, a history is to be had unless its tags cannot be listed. -/
theorem history_of_unlisted {e : Exit} {fault : CommandFault} (hunlisted : i.Unlisted file since? fault)
    (h : (i.logTask file since?).settle (i.logOutcome file since?) = .ok e) :
    i.history file since? = .error (.badCommand fault) := by
  obtain ⟨hshown, hnone, hcannot⟩ := hunlisted
  rw [← tags_logged] at hnone
  have hanswer := answer_history h
  dsimp only at hanswer
  rw [if_pos hshown, i.repository.tagList_eq_error_of_cannotList i.world _ hnone hcannot] at hanswer
  exact hanswer

/-- It is then what is read of the log but for its tags. -/
theorem history_of_ok {e : Exit} (htags : i.TagsInRange file since?)
    (hlisted : ∀ fault, ¬i.Unlisted file since? fault)
    (h : (i.logTask file since?).settle (i.logOutcome file since?) = .ok e) :
    ∃ history, i.history file since? = .ok history ∧ history.untagged =
      (i.repository.backend.logFormat.readLog since? (textLines e.stdout)).result.untagged := by
  have hanswer := answer_history h
  dsimp only at hanswer
  by_cases hshown : i.repository.config.tagsEnabled = true
  · rw [if_pos hshown] at hanswer
    cases hlist : ((i.repository.tagList i.world).runOn
        (i.repository.logged i.world i.session file since?)).1 with
    | ok tags =>
      rw [hlist] at hanswer
      exact ⟨_, hanswer, History.untagged_assignTags _ _⟩
    | error f =>
      obtain ⟨hnone, hwhy⟩ := i.repository.of_tagList_eq_error i.world _ hlist
      rw [tags_logged] at hnone
      rcases hwhy with ⟨-, status, e, hstatus, he, line, hline, hoverflow⟩ | ⟨fault, -, hcannot⟩
      · exact absurd hoverflow (htags hshown hnone status e hstatus he line hline)
      · exact absurd ⟨hshown, hnone, hcannot⟩ (hlisted fault)
  · rw [if_neg hshown] at hanswer
    exact ⟨_, hanswer, rfl⟩

/-- With a log, a history fails only if its tags cannot be listed. -/
theorem history_eq_error_iff {e : Exit} {f : Failure} (htags : i.TagsInRange file since?)
    (h : (i.logTask file since?).settle (i.logOutcome file since?) = .ok e) :
    i.history file since? = .error f ↔ ∃ fault, f = .badCommand fault ∧ i.Unlisted file since? fault := by
  constructor
  · intro hf
    by_contra hnone
    have hlisted : ∀ fault, ¬i.Unlisted file since? fault := by
      intro fault hunlisted
      have hsame := hf.symm.trans (history_of_unlisted hunlisted h)
      exact hnone ⟨fault, Except.error.inj hsame, hunlisted⟩
    obtain ⟨history, hok, -⟩ := history_of_ok htags hlisted h
    exact nomatch hok.symm.trans hf
  · rintro ⟨fault, rfl, hunlisted⟩
    exact history_of_unlisted hunlisted h

/-- Where the logs are the same, histories agree exactly if the tags cannot be listed for both or can be for
both. -/
theorem agrees_iff_of_ok {e : Exit} (h : i.SameButTags j file since?) (hi : i.TagsInRange file since?)
    (hj : j.TagsInRange file since?)
    (hsettle : (i.logTask file since?).settle (i.logOutcome file since?) = .ok e) :
    i.Agrees j file since? ↔
      ∀ fault, i.Unlisted file since? fault ↔ j.Unlisted file since? fault := by
  have hsettle' : (j.logTask file since?).settle (j.logOutcome file since?) = .ok e := by
    rw [← h.logTask_eq, ← h.log, hsettle]
  have hbackend : i.repository.backend = j.repository.backend := by rw [h.repository]
  have herror {f : Failure} : i.history file since? = .error f ↔ _ := history_eq_error_iff hi hsettle
  have herror' {f : Failure} : j.history file since? = .error f ↔ _ := history_eq_error_iff hj hsettle'
  constructor
  · rintro (⟨f, hf, hf'⟩ | ⟨history, history', hok, hok', -⟩) fault
    · obtain ⟨fault', rfl, hunlisted⟩ := herror.mp hf
      obtain ⟨fault'', heq, hunlisted'⟩ := herror'.mp hf'
      obtain rfl := Failure.badCommand.inj heq
      -- a history fails in one way
      refine ⟨fun hother => ?_, fun hother => ?_⟩
      · have hsame := hf.symm.trans (history_of_unlisted hother hsettle)
        rwa [← Failure.badCommand.inj (Except.error.inj hsame)]
      · have hsame := hf'.symm.trans (history_of_unlisted hother hsettle')
        rwa [← Failure.badCommand.inj (Except.error.inj hsame)]
    · refine iff_of_false (fun hunlisted => ?_) fun hunlisted => ?_
      · exact nomatch hok.symm.trans (history_of_unlisted hunlisted hsettle)
      · exact nomatch hok'.symm.trans (history_of_unlisted hunlisted hsettle')
  · intro hsame
    by_cases hlisted : ∃ fault, i.Unlisted file since? fault
    · obtain ⟨fault, hunlisted⟩ := hlisted
      exact .inl ⟨_, history_of_unlisted hunlisted hsettle,
        history_of_unlisted ((hsame fault).mp hunlisted) hsettle'⟩
    · have hlisted : ∀ fault, ¬i.Unlisted file since? fault := not_exists.mp hlisted
      obtain ⟨history, hok, hread⟩ := history_of_ok hi hlisted hsettle
      obtain ⟨history', hok', hread'⟩ :=
        history_of_ok hj (fun fault => mt (hsame fault).mpr (hlisted fault)) hsettle'
      exact .inr ⟨history, history', hok, hok', by rw [hread, hread', hbackend]⟩

end Setting

/-- In settings that differ only in what there is to know of tags, a history fails in the same way or is
the same but for its tags, exactly if the log fails or the tags cannot be listed for the one if they cannot
be for the other. If the log fails, no tags are listed. -/
theorem history_ignores_tags (i j : Setting) (file : Path) (since? : Option Text)
    (h : i.SameButTags j file since?) (hi : i.TagsInRange file since?)
    (hj : j.TagsInRange file since?) :
    (i.Agrees j file since? ↔
      (∃ f, (i.logTask file since?).settle (i.logOutcome file since?) = .error f) ∨
        ∀ fault, i.Unlisted file since? fault ↔ j.Unlisted file since? fault) ∧
    ((¬∃ e, (i.logOutcome file since?).EndsWith (i.logTask file since?).limit? e ∧ e.code = 0) →
      ∀ k ∈ [i, j], (∃ f, k.history file since? = .error f) ∧
        ∀ run ∈ k.historyRuns file since?, run.listsTags k.repository.backend = false) := by
  cases hsettle : (i.logTask file since?).settle (i.logOutcome file since?) with
  | error f =>
    have hsettle' : (j.logTask file since?).settle (j.logOutcome file since?) = .error f := by
      rw [← h.logTask_eq, ← h.log, hsettle]
    obtain ⟨hf, hruns⟩ := Setting.history_of_error hsettle
    obtain ⟨hf', hruns'⟩ := Setting.history_of_error hsettle'
    refine ⟨iff_of_true (.inl ⟨f, hf, hf'⟩) (.inl ⟨f, rfl⟩), fun _ => ?_⟩
    exact List.forall_mem_cons.mpr
      ⟨⟨⟨f, hf⟩, hruns⟩, List.forall_mem_singleton.mpr ⟨⟨f, hf'⟩, hruns'⟩⟩
  | ok e =>
    refine ⟨?_, fun hfails => ?_⟩
    · rw [Setting.agrees_iff_of_ok h hi hj hsettle]
      exact (or_iff_right (not_exists.mpr fun _ => nofun)).symm
    · obtain ⟨-, hend, hanswer⟩ := Task.of_settle_eq_ok hsettle
      exact absurd ⟨e, hend, of_decide_eq_true hanswer⟩ hfails

/-- A file whose commit is tagged, with tags and without them. -/
theorem history_ignores_tags_of_tagged_commit :
    let log : Exit :=
      { stdout := Utf8.encode "\x1ea1\t2020-02-29T00:30:00Z\tAnn <ann@x>\nInitial\n\x1f\n" }
    let list : Exit := { stdout := Utf8.encode "a1\t\t2020-03-01T00:00:00+00:00\tv1\n" }
    let shown : Setting :=
      { repository := { backend := .git, root := .root, config := { tagsEnabled := true } }
        world :=
          { outcome := fun _ argv => .exits (if argv[1]? = some "log".toList then log else list) }
        session := {} }
    let hidden : Setting :=
      { repository := { backend := .git, root := .root }
        world :=
          { outcome := fun _ argv =>
              if argv[1]? = some "log".toList then .exits log else .unstartable .missing }
        session := { tags := ⟨some []⟩ } }
    ∃ history history', shown.history (.ofText "/f") none = .ok history ∧
      hidden.history (.ofText "/f") none = .ok history' ∧
      history.untagged = history'.untagged ∧ history.map (·.tags) = [["v1".toList]] := by
  intro log list shown hidden
  have hsame : shown.SameButTags hidden (.ofText "/f") none := ⟨rfl, rfl, rfl, rfl, rfl⟩
  have hshown : shown.TagsInRange (.ofText "/f") none := by
    intro _ _ status e _ he
    obtain rfl : list = e := Outcome.Prints.eq (o := .exits list) (.inl rfl) he
    decide +kernel
  have hhidden : hidden.TagsInRange (.ofText "/f") none := nofun
  -- neither tool is asked in vain
  have hlisted : ∀ fault, ¬shown.Unlisted (.ofText "/f") none fault := by
    rintro fault ⟨-, -, hstatus | ⟨status, -, hlist⟩⟩
    · obtain ⟨-, hrejected⟩ := (shown.repository.knownStatus_eq_error_iff _ _).mp hstatus
      exact nomatch hrejected
    · exact nomatch hlist
  have hlisted' : ∀ fault, ¬hidden.Unlisted (.ofText "/f") none fault := fun _ h => nomatch h.1
  obtain ⟨hagrees, -⟩ := history_ignores_tags shown hidden (.ofText "/f") none hsame hshown hhidden
  have hboth := hagrees.mpr (.inr fun fault => iff_of_false (hlisted fault) (hlisted' fault))
  rcases hboth with ⟨f, -, hf⟩ | ⟨history, history', hok, hok', huntagged⟩
  · have hok : hidden.history (.ofText "/f") none = .ok _ :=
      runOn_history hidden.repository hidden.world hidden.session (.ofText "/f") none rfl
        (.inl rfl) rfl (by decide +kernel)
    exact nomatch hf.symm.trans hok
  · have htags : (shown.history (.ofText "/f") none).map (·.map (·.tags)) = .ok [["v1".toList]] := by
      decide +kernel
    rw [hok] at htags
    exact ⟨history, history', hok, hok', huntagged, Except.ok.inj htags⟩

/-- With a time limit of 25 days, there is no history with tags, but one without them. -/
theorem not_ignores_tags :
    ¬∀ (i j : Setting) (file : Path) (since? : Option Text),
      (∀ k ∈ [i, j], k.world.IsLawful (k.repository.config.timeout.map .ofInt)) →
      i.SameButTags j file since? → i.TagsInRange file since? → j.TagsInRange file since? →
        i.Agrees j file since? := by
  intro h
  let w : World := .facing (some (.ofInt 2160000))
    (fun argv => if argv[1]? = some versionFlag then .captured else .streamed) "timeout is too large"
    fun _ => .exits {}
  let setting (shown : Bool) : Setting :=
    { repository :=
        { backend := .git, root := .root, config := { tagsEnabled := shown, timeout := some 2160000 } }
      world := w
      session := {} }
  let i := setting true
  let j := setting false
  let file : Path := .ofText "/f"
  have hlawful (shown : Bool) : w.IsLawful ((setting shown).repository.config.timeout.map .ofInt) :=
    World.isLawful_facing fun _ => nofun
  have hsame : i.SameButTags j file none := ⟨rfl, rfl, rfl, rfl, rfl⟩
  let s := i.repository.logged w {} file none
  have hstatus : i.repository.knownStatus w s = .error (.overlong "timeout is too large") :=
    knownStatus_facing_of_overlong (TimeLimit.isOverlong_ofInt 2160000) rfl rfl rfl
  have hi : i.TagsInRange file none := by
    intro _ _ status e hknown
    have hnone := i.repository.status_probed w s
    rw [hstatus] at hnone
    exact nomatch hknown.symm.trans hnone
  have hj : j.TagsInRange file none := nofun
  have hsettle : (i.logTask file none).settle (i.logOutcome file none) = .ok {} := by rfl
  have hagrees := h i j file none
    (List.forall_mem_cons.mpr ⟨hlawful true, List.forall_mem_singleton.mpr (hlawful false)⟩) hsame hi hj
  have hunlisted := (Setting.agrees_iff_of_ok hsame hi hj hsettle).mp hagrees
  obtain ⟨hshown, -⟩ := (hunlisted _).mp ⟨rfl, rfl, .inl hstatus⟩
  contradiction

end Repository

end Annals

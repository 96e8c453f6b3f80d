import Annals.Proofs.BitKeeper.Log
import Annals.Proofs.Git.Log
import Annals.Proofs.Process.Endings
import Annals.Proofs.Repository.Session
import Annals.Repository.Records

/-!
# Logs of the tools

Each tool has a format of its logs (`Backend.logFormat`). The history of a file is what a fresh reader
makes of the output of the log command, if that succeeds (`runOn_history`). What holds of the reader for
any format is stated here for the formats of the tools: a record is read as if it stood alone, and none
is lost without a trace (`readLog_isolated`).
-/

namespace Annals

namespace Backend

/-- The records by which a log is read. -/
def Record : Backend → Type
  | bitkeeper => Entry
  | git => Git.Commit

/-- The format of the logs of a tool. -/
def logFormat : (b : Backend) → HistoryFormat b.Record
  | bitkeeper => BitKeeper.logFormat
  | git => Git.logFormat

/-- The ways in which a tool writes dates in its logs. -/
def datePatterns : Backend → List DatePattern
  | bitkeeper => [BitKeeper.datePattern]
  | git => Git.datePatterns

/-- The date in the text of a header that has all its fields. -/
def dateField? : Backend → Text → Option Text
  | bitkeeper => BitKeeper.dateField?
  | git => Git.dateField?

/-- The date of a header line that has all its fields. -/
def logDate? (b : Backend) (line : Text) : Option Text :=
  (b.logFormat.header? line).bind b.dateField?

/-- Whether a line is a header whose date leaves the years 1 to 9999 when it is converted to UTC. -/
def Overflows (b : Backend) (line : Text) : Prop :=
  ∃ date ∈ b.logDate? line, readDate b.datePatterns date = .error .outOfRange

instance (b : Backend) (line : Text) : Decidable (b.Overflows line) :=
  inferInstanceAs (Decidable (∃ date ∈ b.logDate? line, _))

/-- Whether a header line is refused: it has not all its fields, or no pattern reads its date. -/
def Refuses (b : Backend) (line : Text) : Prop := Opened.Refused b.datePatterns (b.logDate? line)

/-- Whether a line begins a record: in BitKeeper it is the letter D, or starts with it and a blank; in
Git it starts with the record marker. -/
def BeginsRecord : Backend → Text → Prop
  | bitkeeper, line => line = ['D'] ∨ ∃ rest, line = 'D' :: ' ' :: rest
  | git, line => ∃ rest, line = Git.recordMarker :: rest

theorem isHeader_logFormat (b : Backend) {line : Text} :
    b.logFormat.isHeader line = true ↔ b.BeginsRecord line := by
  cases b with
  | bitkeeper => exact BitKeeper.isHeader_logFormat
  | git => exact Git.isHeader_logFormat

theorem graded_logFormat (b : Backend) : b.logFormat.Graded := by
  cases b with
  | bitkeeper => exact BitKeeper.graded_logFormat
  | git => exact Git.graded_logFormat

theorem opens_logFormat (b : Backend) (header : Text) :
    Opened.ByDate b.datePatterns (b.dateField? header) (b.logFormat.opens header) := by
  cases b with
  | bitkeeper => exact BitKeeper.openRecord_byDate header
  | git => exact Git.openRecord_byDate header

theorem failsAt_logFormat (b : Backend) {line : Text} :
    b.logFormat.failsAt line ↔ b.Overflows line := by
  simp only [HistoryFormat.failsAt, Overflows, (b.opens_logFormat _).eq_failed_iff, logDate?,
    Option.mem_def, Option.bind_eq_some_iff]
  grind

/-- The records that are dropped are those whose headers are refused. -/
theorem dropsAt_logFormat (b : Backend) {line : Text} :
    b.logFormat.dropsAt line ↔ b.logFormat.isHeader line = true ∧ b.Refuses line := by
  unfold HistoryFormat.dropsAt HistoryFormat.isHeader Refuses logDate?
  cases b.logFormat.header? line with
  | none => simp
  | some header => simp [← (b.opens_logFormat header).exists_eq_dropped_iff]

/-! ## Records apart from each other -/

/-- If no date overflows, a log is read without failing as if each of its segments stood alone, with the
first entry of each revision kept and nothing taken from the lines before the first header, and each of
its header lines has a fate: one entry, one warning, because it is refused or its revision comes again, or
exclusion by the bound. -/
theorem readLog_isolated (b : Backend) (since? : Option Text) (lines : List Text)
    (h : ∀ line ∈ lines, ¬b.Overflows line) :
    let F := b.logFormat
    let c : Cut F.isHeader := Cut.ofLines lines
    c.lines = lines ∧
    (∀ line, F.isHeader line = true ↔ b.BeginsRecord line) ∧
    (F.readLog since? lines).failure? = none ∧
    (F.readLog since? lines).result =
      History.firstOfEach (c.segments.flatMap fun seg => (F.readLog since? seg.lines).result) ∧
    (F.readLog since? lines).grave = (F.readLog since? (c.segments.flatMap Segment.lines)).grave ∧
    (F.readLog since? c.before).grave = ⟨[], [], none⟩ ∧
    ∃ fates, F.AccountsAll b.Refuses since? [] c.segments fates ∧
      (F.readLog since? lines).result = fates.filterMap Fate.kept? ∧
      (F.readLog since? lines).warnings = fates.filterMap Fate.warning? := by
  intro F c
  have hlines : c.lines = lines := Cut.lines_ofLines lines
  have hgraded : F.Graded := b.graded_logFormat
  have hok : ∀ seg ∈ c.segments, ¬F.failsAt seg.header := by
    intro seg hseg hfails
    have hmem : seg.header ∈ c.lines :=
      List.mem_append_right _ (List.mem_flatMap.2 ⟨seg, hseg, List.mem_cons_self⟩)
    exact h _ (hlines ▸ hmem) (b.failsAt_logFormat.1 hfails)
  have hgrave := HistoryFormat.grave_readLog hgraded since? c hok
  have hsegments := HistoryFormat.grave_readLog hgraded since? ⟨[], c.segments, by simp⟩ hok
  have hbefore := HistoryFormat.grave_readLog hgraded since?
    ⟨c.before, [], c.before_plain⟩ (by simp)
  have hhistory := HistoryFormat.history_readLog hgraded since? c hok
  simp only [Cut.lines, List.nil_append, List.flatMap_nil, List.append_nil] at hsegments hbefore
  rw [hlines] at hgrave hhistory
  refine ⟨hlines, fun _ => b.isHeader_logFormat, congrArg Reading.failure? hgrave, hhistory,
    hgrave.trans hsegments.symm, hbefore, F.fates since? [] c.segments, ?_,
    congrArg Reading.result hgrave, congrArg Reading.notes hgrave⟩
  exact HistoryFormat.accountsAll_fates hgraded (fun _ hdrops => (b.dropsAt_logFormat.1 hdrops).2) [] hok

/-- A stray line, a record, one with a bad date and one that comes again. -/
theorem readLog_isolated_of_four_kinds :
    let F := git.logFormat
    let lines : List Text :=
      ["stray", "\x1ea1\t2020-02-29T00:30:00+01:00\tAnn", "one\x1f", "\x1eb2\tyesterday\tBob", "two\x1f",
        "\x1ea1\t2020-02-29T00:30:00Z\tAnn", "three\x1f"]
    (∀ line ∈ lines, ¬git.Overflows line) ∧
    (F.readLog none lines).result.map (·.message) = [["one".toList]] ∧
    (F.readLog none lines).result =
      History.firstOfEach ((Cut.ofLines lines : Cut F.isHeader).segments.flatMap fun seg =>
        (F.readLog none seg.lines).result) :=
  ⟨by decide +kernel, by decide +kernel,
    (readLog_isolated git none _ (by decide +kernel)).2.2.2.1⟩

/-! ## Logs read bit by bit -/

/-- What an entry has that is read of a log with a bound: a date in UTC and a revision that the bound does
not exclude. In BitKeeper, its changeset and its former path are not empty; in Git, its message does not
end with a blank line. -/
def Delivers (b : Backend) (since? : Option Text) (e : Entry) : Prop :=
  e.date.offset? = some 0 ∧
    match b with
    | bitkeeper => since? ≠ some e.revision ∧ e.changeset ≠ some [] ∧ e.renamedFrom ≠ some []
    | git => (∀ since ∈ since?, since ≠ [] → ¬since <+: e.revision) ∧
      ∀ line ∈ e.message.getLast?, ∃ c ∈ line, isBlank c = false

theorem delivers_of_mem_readAfter (b : Backend) (since? : Option Text) (calls : List HistoryReader.Call) :
    ∀ e ∈ b.logFormat.readAfter since? calls, b.Delivers since? e := by
  intro e he
  rw [HistoryFormat.readAfter_eq_entries] at he
  cases b with
  | bitkeeper =>
    have hreader := HistoryFormat.sound_reader BitKeeper.maintains_logFormat since? (calls ++ [.history])
    obtain ⟨hread, hbound⟩ := hreader.entries e he
    refine ⟨hread.utc, fun hsince => ?_, hread.changeset, hread.renamedFrom⟩
    simp [hsince, BitKeeper.logFormat] at hbound
  | git =>
    have hreader := HistoryFormat.sound_reader Git.maintains_logFormat since? (calls ++ [.history])
    obtain ⟨hread, hbound⟩ := hreader.entries e he
    refine ⟨hread.utc, fun since hsince hne hbegins => ?_, hread.message⟩
    obtain rfl := Option.mem_def.mp hsince
    simp [Git.logFormat, hne, Text.startsWith_iff.mpr hbegins] at hbound

/-- Whatever lines are fed to the reader of a log, failing ones included, and whenever it is asked: each
history that it gives is the beginning of all later ones, the next one is the same if no line comes in
between, and its entries are of distinct revisions. -/
theorem readAfter_stable (b : Backend) (since? : Option Text) (calls : List HistoryReader.Call) :
    let h := b.logFormat.readAfter since? calls
    (∀ later, h <+: b.logFormat.readAfter since? (calls ++ .history :: later)) ∧
    (∀ n, b.logFormat.readAfter since? (calls ++ List.replicate n .history) = h) ∧
    h.revisions.Nodup ∧ ∀ e ∈ h, b.Delivers since? e := by
  have hdistinct : (b.logFormat.readAfter since? calls).revisions.Nodup := by
    rw [HistoryFormat.readAfter_eq_entries]
    cases b with
    | bitkeeper => exact (HistoryFormat.sound_reader BitKeeper.maintains_logFormat since? _).distinct
    | git => exact (HistoryFormat.sound_reader Git.maintains_logFormat since? _).distinct
  exact ⟨b.logFormat.readAfter_prefix since? calls, b.logFormat.readAfter_replicate since? calls,
    hdistinct, b.delivers_of_mem_readAfter since? calls⟩

end Backend

/-! ## The history of a file -/

namespace Repository

/-- The command that prints the log of a file, or the part of it after a revision. -/
def historyCommand (r : Repository) (w : World) (s : Session) (file : Path) (since? : Option Text) :
    Command :=
  let file := w.files.absolute file
  r.toolCommand w s (some file.parent) (historyArgs r.backend file.name since?)

/-- The records of a log are read if the command succeeds and reading does. -/
theorem runOn_readHistory {π : Type} (r : Repository) (w : World) (s : Session)
    (F : HistoryFormat π) (file : Path) (since? : Option Text) {e : Exit}
    (hend : (w.outcome s.runs (r.toolCommand w s (some file.parent)
      (historyArgs r.backend file.name since?)).argv).EndsWith
        (r.toolCommand w s (some file.parent) (historyArgs r.backend file.name since?)).streamLimit? e)
    (hcode : e.code = 0) (hread : (F.readLog since? (textLines e.stdout)).failure? = none) :
    ((r.readHistory w F file since?).runOn s).1 =
      .ok (F.readLog since? (textLines e.stdout)).result := by
  obtain ⟨hstate, hresult⟩ := Command.stream_of_endsWith (HistoryReader.feed F)
    { since := since? } hend hread
  have hstream := r.runOn_stream w s (some file.parent) (historyArgs r.backend file.name since?)
    (HistoryReader.feed F) { since := since? }
  simp only [Streamed.answer, hstate, hresult] at hstream
  rw [readHistory, Work.runOn_bind_of_ok hstream]
  have hok : ¬e.code ≠ 0 := by simp [hcode]
  simp only [if_neg hok]
  rfl

theorem history_eq (r : Repository) (w : World) (file : Path) (since? : Option Text) :
    r.history w file since? =
      (do
        let history ← r.readHistory w r.backend.logFormat (w.files.absolute file) since?
        if r.config.tagsEnabled ∧ r.backend.capabilities.fileBasedTags then
          return history.assignTags (← r.tagList w)
        else return history) := by
  obtain ⟨backend, root, config⟩ := r
  cases backend <;> rfl

/-- The history of a file without tags is what is read of its log. -/
theorem runOn_history (r : Repository) (w : World) (s : Session) (file : Path)
    (since? : Option Text) {e : Exit} (htags : r.config.tagsEnabled = false)
    (hend : (w.outcome s.runs (r.historyCommand w s file since?).argv).EndsWith
      (r.historyCommand w s file since?).streamLimit? e) (hcode : e.code = 0)
    (hread : (r.backend.logFormat.readLog since? (textLines e.stdout)).failure? = none) :
    ((r.history w file since?).runOn s).1 =
      .ok (r.backend.logFormat.readLog since? (textLines e.stdout)).result := by
  have hnotags : ¬(r.config.tagsEnabled = true ∧ r.backend.capabilities.fileBasedTags = true) := by
    simp [htags]
  have hlog := r.runOn_readHistory w s r.backend.logFormat (w.files.absolute file) since? hend hcode
    hread
  rw [history_eq, Work.runOn_bind_of_ok (Prod.ext hlog rfl), if_neg hnotags]
  rfl

end Repository

end Annals

import Annals.Process.Script
import Annals.Proofs.History.Tagging
import Annals.Proofs.Repository.Tags

/-!
# Tags of changesets

BitKeeper numbers the revisions of a file apart from the changesets that tags are attached to. An entry
of a tagged history has the names that the list of tags gives to its changeset. A revision that is not
yet committed has no changeset, and is given the names of the changeset of the same number instead, if
there is one (`history_tagged`); so it is tagged although nothing that it belongs to is
(`not_isTaggedByChangeset`).
-/

namespace Annals

/-- Whether an entry has exactly the names that the records give to its changeset, in the order of the
records, and none if it has no changeset. -/
def Entry.IsTaggedByChangeset (tags : List Tag) (e : Entry) : Prop :=
  e.tags = (e.changeset.bind Text.nonEmpty?).elim [] (Tag.namesOf tags)

instance (tags : List Tag) (e : Entry) : Decidable (e.IsTaggedByChangeset tags) :=
  inferInstanceAs (Decidable (e.tags = _))

namespace Backend

/-- The entries of a log have no tags yet, and no changeset that is empty. -/
theorem untagged_readLog (b : Backend) (since? : Option Text) (lines : List Text) :
    ∀ e ∈ (b.logFormat.readLog since? lines).result, e.tags = [] ∧ e.changeset ≠ some [] := by
  intro e he
  cases b with
  | bitkeeper =>
    have hread := HistoryFormat.forall_mem_readLog BitKeeper.maintains_logFormat since? lines e he
    exact ⟨hread.tags, hread.changeset⟩
  | git =>
    have hread := HistoryFormat.forall_mem_readLog Git.maintains_logFormat since? lines e he
    exact ⟨hread.tags, by simp [hread.changeset]⟩

end Backend

namespace Repository

variable (r : Repository) (w : World) (s : Session)

/-- The list of tags that is at hand in a session: the one that was made before, or, if there is none,
the one that is printed when the tags are listed. -/
inductive HasTags : List Tag → Prop where
  | kept {tags : List Tag} (h : s.tags.value? = some tags) : HasTags tags
  | printed {status : ToolStatus} {e : Exit} (h : s.tags.value? = none)
      (hstatus : (r.probed w s).status.value? = some status)
      (hend : (w.outcome (r.probed w s).runs (r.tagCommand w (r.probed w s) status r.root).argv).EndsWith
        (r.tagCommand w (r.probed w s) status r.root).streamLimit? e)
      (hcode : e.code = 0) (hdates : ∀ line ∈ textLines e.stdout, ¬r.backend.TagOverflows line) :
      HasTags (r.backend.readTags (textLines e.stdout)).result

theorem runOn_tagList_of_hasTags {tags : List Tag} (h : r.HasTags w s tags) :
    ((r.tagList w).runOn s).1 = .ok tags := by
  cases h with
  | kept h => rw [r.runOn_tagList_of_some w s h]
  | @printed status e h hstatus hend hcode hdates =>
    obtain ⟨run, notes, -, hlist⟩ := r.runOn_enumerateTags w (r.probed w s) hstatus r.root
    have hread : (r.backend.readTags (textLines e.stdout)).failure? = none := by
      rw [Backend.failure?_readTags, if_neg]
      exact fun ⟨line, hline, ho⟩ => hdates line hline ho
    have hknown := (r.knownStatus_eq_ok_iff w s).mpr hstatus
    rw [r.runOn_tagList_of_none w s h, r.runOn_enumerateTags_of_known w s hknown, hlist]
    simp only [Backend.listed, Outcome.exit?_eq_some_iff.mpr hend.prints, Option.bind_some, hread,
      (Command.ending_eq_ok_iff _ _).mpr hend, if_pos hcode]

/-- The session in which the log of a file has been read. -/
def logged (file : Path) (since? : Option Text) : Session :=
  ((r.readHistory w r.backend.logFormat (w.files.absolute file) since?).runOn s).2

/-- A history with tags is what is read of the log, with the names that the list of tags gives. -/
theorem runOn_history_of_hasTags (file : Path) (since? : Option Text) {e : Exit} {tags : List Tag}
    (htags : r.config.tagsEnabled = true)
    (hend : (w.outcome s.runs (r.historyCommand w s file since?).argv).EndsWith
      (r.historyCommand w s file since?).streamLimit? e) (hcode : e.code = 0)
    (hdates : ∀ line ∈ textLines e.stdout, ¬r.backend.Overflows line)
    (hlist : r.HasTags w (r.logged w s file since?) tags) :
    ((r.history w file since?).runOn s).1 =
      .ok ((r.backend.logFormat.readLog since? (textLines e.stdout)).result.map fun e =>
        e.withTags (Tag.namesOf tags e.tagRevision)) := by
  have hread : (r.backend.logFormat.readLog since? (textLines e.stdout)).failure? = none := by
    rw [Backend.failure?_readLog, if_neg]
    exact fun ⟨line, hline, ho⟩ => hdates line hline ho
  have hlog : (r.readHistory w r.backend.logFormat (w.files.absolute file) since?).runOn s =
      (.ok (r.backend.logFormat.readLog since? (textLines e.stdout)).result,
        r.logged w s file since?) :=
    Prod.ext (r.runOn_readHistory w s r.backend.logFormat _ since? hend hcode hread) rfl
  have hlisted : (r.tagList w).runOn (r.logged w s file since?) = (.ok tags, _) :=
    Prod.ext (r.runOn_tagList_of_hasTags w _ hlist) rfl
  have hshown : r.config.tagsEnabled = true ∧ r.backend.capabilities.fileBasedTags = true := by
    refine ⟨htags, ?_⟩
    cases r.backend <;> rfl
  have huntagged : ∀ entry ∈ (r.backend.logFormat.readLog since? (textLines e.stdout)).result,
      entry.tags = [] :=
    fun entry hentry => (r.backend.untagged_readLog since? (textLines e.stdout) entry hentry).1
  rw [history_eq, Work.runOn_bind_of_ok hlog, if_pos hshown, Work.runOn_bind_of_ok hlisted,
    ← History.assignTags_of_untagged huntagged tags]
  rfl

/-- Every entry of a tagged BitKeeper history has the names of its changeset, or those of its own number
if it has none. So the names are those of changesets only, unless an entry without a changeset has the
number of a tagged one. -/
theorem history_tagged (file : Path) (since? : Option Text) {e : Exit} {tags : List Tag}
    (hbackend : r.backend = .bitkeeper) (htags : r.config.tagsEnabled = true)
    (hend : (w.outcome s.runs (r.historyCommand w s file since?).argv).EndsWith
      (r.historyCommand w s file since?).streamLimit? e) (hcode : e.code = 0)
    (hdates : ∀ line ∈ textLines e.stdout, ¬r.backend.Overflows line)
    (hlist : r.HasTags w (r.logged w s file since?) tags) :
    ∃ h, ((r.history w file since?).runOn s).1 = .ok h ∧
      h.map (·.withTags []) = (BitKeeper.logFormat.readLog since? (textLines e.stdout)).result ∧
      ∀ entry ∈ h,
        entry.tags = Tag.namesOf tags (entry.changeset.getD entry.revision) ∧
        (entry.IsTaggedByChangeset tags ↔ entry.changeset ≠ none ∨
          ∀ tag ∈ tags, tag.revision = entry.revision → tag.names = []) := by
  obtain ⟨backend, root, config⟩ := r
  obtain rfl : backend = .bitkeeper := hbackend
  have hhistory := runOn_history_of_hasTags _ w s file since? htags hend hcode hdates hlist
  have huntagged := Backend.untagged_readLog .bitkeeper since? (textLines e.stdout)
  refine ⟨_, hhistory, ?_, ?_⟩
  · rw [List.map_map]
    refine (List.map_congr_left fun entry hentry => ?_).trans (List.map_id _)
    have hempty : entry.tags = [] := (huntagged entry hentry).1
    obtain ⟨revision, author, date, message, path, renamedFrom, tags, changeset⟩ := entry
    obtain rfl : tags = [] := hempty
    rfl
  · intro entry hentry
    obtain ⟨old, hold, rfl⟩ := List.mem_map.1 hentry
    obtain ⟨-, hchangeset⟩ := huntagged old hold
    have hcommit : old.changeset.bind Text.nonEmpty? = old.changeset := by
      rcases hc : old.changeset with _ | _ | ⟨c, cs⟩
      · rfl
      · exact absurd hc hchangeset
      · rfl
    have hrevision : old.tagRevision = old.changeset.getD old.revision := by
      rw [Entry.tagRevision_eq, hcommit]
    refine ⟨congrArg (Tag.namesOf tags) hrevision, ?_⟩
    change Tag.namesOf tags old.tagRevision = (old.changeset.bind Text.nonEmpty?).elim [] _ ↔
      old.changeset ≠ none ∨ ∀ tag ∈ tags, tag.revision = old.revision → tag.names = []
    rw [hrevision, hcommit]
    cases old.changeset with
    | none => simp [Tag.namesOf_eq_nil_iff]
    | some c => simp

/-- A committed revision with the number of a tagged changeset, and one that is not committed. -/
theorem history_tagged_of_two_revisions :
    let log : Text := "D f\t1.2\t2017-03-01 00:00:00 GMT+00:00\tjas\t1.40\nD f\t1.3\t2017-01-01 00:00:00 GMT+00:00\tjas\n"
    let list : Text := "D 1.2\t2016-12-01 00:00:00 GMT+00:00\nT v1\nD 1.40\t2017-03-02 00:00:00 GMT+00:00\nT v2\n"
    let script : Script := [("log".toList, [.exits { stdout := Utf8.encode log }]),
      ("tags".toList, [.exits { stdout := Utf8.encode list }])]
    let w : World := { outcome := script.outcome }
    let r : Repository := { backend := .bitkeeper, root := .root, config := { tagsEnabled := true } }
    ∃ h, ((r.history w (.ofText "/f") none).runOn {}).1 = .ok h ∧
      h.map (·.tags) = [["v2".toList], []] := by
  intro log list script w r
  let tags : List Tag :=
    [⟨.utc ⟨2016, 12, 1, 0, 0, 0, 0⟩, "1.2", ["v1"]⟩, ⟨.utc ⟨2017, 3, 2, 0, 0, 0, 0⟩, "1.40", ["v2"]⟩]
  have hread : (Backend.bitkeeper.readTags (textLines (Utf8.encode list))).result = tags :=
    Backend.result_readTags (by decide +kernel) (by decide) (by decide)
  have hstatus : (r.probed w (r.logged w {} (.ofText "/f") none)).status.value? =
      some ⟨false, .oldest⟩ := by
    decide +kernel
  have hlist : r.HasTags w (r.logged w {} (.ofText "/f") none) tags :=
    hread ▸ .printed (by decide +kernel) hstatus (e := { stdout := Utf8.encode list })
      (Or.inl (by decide +kernel)) rfl (by decide +kernel)
  obtain ⟨h, hrun, hentries, htagged⟩ := history_tagged r w {} (.ofText "/f") none rfl rfl
    (e := { stdout := Utf8.encode log }) (Or.inl (by decide +kernel)) rfl (by decide +kernel) hlist
  have hnames : h.map (·.tags) =
      (h.map (·.withTags [])).map fun e => Tag.namesOf tags (e.changeset.getD e.revision) := by
    rw [List.map_map]
    exact List.map_congr_left fun entry hentry => (htagged entry hentry).1
  refine ⟨h, hrun, ?_⟩
  rw [hnames, hentries]
  decide +kernel

/-- A revision that is not committed has the number of a tagged changeset, and is given its tag. -/
theorem not_isTaggedByChangeset :
    ¬∀ (r : Repository) (w : World) (s : Session) (file : Path) (since? : Option Text) (e : Exit)
      (tags : List Tag) (h : History), r.backend = .bitkeeper → r.config.tagsEnabled = true →
      (w.outcome s.runs (r.historyCommand w s file since?).argv).EndsWith
        (r.historyCommand w s file since?).streamLimit? e → e.code = 0 →
      (∀ line ∈ textLines e.stdout, ¬r.backend.Overflows line) →
      r.HasTags w (r.logged w s file since?) tags →
      ((r.history w file since?).runOn s).1 = .ok h → ∀ entry ∈ h, entry.IsTaggedByChangeset tags := by
  intro hclaim
  let log : Text := "D f\t1.5\t2017-03-01 00:00:00 GMT+00:00\tjas\t\n"
  let list : Text := "D 1.5\t2016-12-01 00:00:00 GMT+00:00\nT v1\n"
  let script : Script := [("log".toList, [.exits { stdout := Utf8.encode log }]),
    ("tags".toList, [.exits { stdout := Utf8.encode list }])]
  let w : World := { outcome := script.outcome }
  let r : Repository := { backend := .bitkeeper, root := .root, config := { tagsEnabled := true } }
  let tags : List Tag := [⟨.utc ⟨2016, 12, 1, 0, 0, 0, 0⟩, "1.5", ["v1"]⟩]
  have hread : (Backend.bitkeeper.readTags (textLines (Utf8.encode list))).result = tags :=
    Backend.result_readTags (by decide +kernel) (by decide) (by decide)
  have hstatus : (r.probed w (r.logged w {} (.ofText "/f") none)).status.value? =
      some ⟨false, .oldest⟩ := by
    decide +kernel
  have hlist : r.HasTags w (r.logged w {} (.ofText "/f") none) tags :=
    hread ▸ .printed (by decide +kernel) hstatus (e := { stdout := Utf8.encode list })
      (Or.inl (by decide +kernel)) rfl (by decide +kernel)
  have hend : (w.outcome [] (r.historyCommand w {} (.ofText "/f") none).argv).EndsWith
      (r.historyCommand w {} (.ofText "/f") none).streamLimit? { stdout := Utf8.encode log } :=
    Or.inl (by decide +kernel)
  have hdates : ∀ line ∈ textLines (Utf8.encode log), ¬r.backend.Overflows line := by decide +kernel
  have hrun := runOn_history_of_hasTags r w {} (.ofText "/f") none rfl hend rfl hdates hlist
  have hall := hclaim r w {} (.ofText "/f") none _ tags _ rfl rfl hend rfl hdates hlist hrun
  revert hall
  decide +kernel

end Repository

end Annals

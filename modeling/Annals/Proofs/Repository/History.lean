import Annals.Proofs.Git.Revision
import Annals.Proofs.Process.Lines
import Annals.Proofs.Repository.Logs

/-!
# Histories that were printed

The history of a file is what the tool printed of it: the bytes of the output are cut into lines, the
lines into records and the records into fields, and all of this undoes how the tool put them together.
It holds for whatever the session was before, for a part of the history after a revision as for all of
it, and for any number of records.
-/

namespace Annals.Repository

/-- The history of a file in a BitKeeper repository is the deltas that were printed, in their order, each
with all that is known of it and its date in UTC. -/
theorem history_of_printed_deltas (r : Repository) (w : World) (s : Session) (file : Path)
    (since? : Option Text) (deltas : List BitKeeper.Delta) (blocks : List (List Text))
    (stderr : Bytes) (hbackend : r.backend = .bitkeeper) (htags : r.config.tagsEnabled = false)
    (hprint : List.Forall₂ BitKeeper.Delta.Prints deltas blocks)
    (hdistinct : (deltas.map (·.revision)).Nodup)
    (hsince : ∀ since ∈ since?, since ∉ deltas.map (·.revision))
    (hend : (w.outcome s.runs (r.historyCommand w s file since?).argv).EndsWith
      (r.historyCommand w s file since?).streamLimit?
        ⟨0, Utf8.encode (Text.ofLines blocks.flatten), stderr⟩) :
    ((r.history w file since?).runOn s).1 = .ok (deltas.map BitKeeper.Delta.entry) ∧
      ∀ d ∈ deltas, d.entry.date.offset? = some 0 ∧ d.entry.date.civil.isValid = true ∧
        d.entry.date.instant = (d.stamp.civil.micros : Int) - d.stamp.offset.micros := by
  have hlines : ∀ line ∈ blocks.flatten, '\n' ∉ line := BitKeeper.Delta.oneLine_flatten hprint
  have hstdout : textLines (Utf8.encode (Text.ofLines blocks.flatten)) = blocks.flatten :=
    textLines_encode_ofLines hlines
  obtain ⟨backend, root, config⟩ := r
  obtain rfl : backend = .bitkeeper := hbackend
  obtain ⟨hhistory, hfailure⟩ := BitKeeper.Delta.readLog_prints hprint hdistinct hsince
  refine ⟨?_, fun d _ => Stamp.utc_spec d.inRange⟩
  have hrun := runOn_history _ w s file since? htags hend rfl (by rw [hstdout]; exact hfailure)
  rw [hrun, hstdout]
  exact congrArg Except.ok hhistory

/-- Two deltas: one with a comment that holds a tab, a carriage return and the look of a header, and one
that is not yet committed and renamed the file. -/
theorem history_of_two_printed_deltas :
    let newer : BitKeeper.Delta :=
      { path := "src/a.c", revision := "1.2", author := "bob@x", changeset? := some ['1', '.', '7']
        stamp := ⟨⟨2020, 2, 29, 0, 30, 0, 0⟩, ⟨false, 1, 0, by decide, by decide⟩, by decide, rfl⟩
        renamedFrom? := none, comments := ["fix\tit\r", "", "D not a header"]
        inRange := by decide +kernel, solid := by decide, nonempty := by decide, oneLine := by decide }
    let older : BitKeeper.Delta :=
      { path := "src/a.c", revision := "1.1", author := "ann", changeset? := none
        stamp := ⟨⟨1999, 12, 31, 23, 59, 59, 0⟩, ⟨true, 8, 30, by decide, by decide⟩, by decide, rfl⟩
        renamedFrom? := some ['a', '.', 'c'], comments := []
        inRange := by decide +kernel, solid := by decide, nonempty := by decide, oneLine := by decide }
    let blocks : List (List Text) :=
      [[newer.headerLine, "C fix\tit\r", "C", "C D not a header"], [older.headerLine]]
    let w : World :=
      { outcome := fun _ _ => .exits ⟨0, Utf8.encode (Text.ofLines blocks.flatten), []⟩ }
    let r : Repository := { backend := .bitkeeper, root := .root }
    ((r.history w .root (some "1.0".toList)).runOn {}).1 = .ok [newer.entry, older.entry] := by
  intro newer older blocks w r
  refine (history_of_printed_deltas r w {} .root (some "1.0".toList) [newer, older] blocks [] rfl rfl
    ?_ (by decide) (by decide) (Or.inl rfl)).1
  refine .cons ⟨_, rfl, ?_⟩ (.cons ⟨_, rfl, .nil⟩ .nil)
  exact .cons (by decide) (.cons (by decide) (.cons (by decide) .nil))

/-- The history of a file in a Git repository is the revisions that were printed, in their order, each
with all that is known of it and its date in UTC. -/
theorem history_of_printed_revisions (r : Repository) (w : World) (s : Session) (file : Path)
    (since? : Option Text) (revisions : List Git.Revision) (texts : List Text) (stderr : Bytes)
    (hbackend : r.backend = .git) (htags : r.config.tagsEnabled = false)
    (hprint : List.Forall₂ Git.Revision.Prints revisions texts)
    (hdistinct : (revisions.map (·.hash)).Nodup)
    (hsince : ∀ since ∈ since?, since ≠ [] → ∀ v ∈ revisions, ¬since <+: v.hash)
    (hend : (w.outcome s.runs (r.historyCommand w s file since?).argv).EndsWith
      (r.historyCommand w s file since?).streamLimit? ⟨0, Utf8.encode texts.flatten, stderr⟩) :
    ((r.history w file since?).runOn s).1 = .ok (revisions.map Git.Revision.entry) ∧
      ∀ v ∈ revisions, v.entry.date.offset? = some 0 ∧ v.entry.date.civil.isValid = true ∧
        v.entry.date.instant = (v.stamp.civil.micros : Int) - v.stamp.offset.micros := by
  obtain ⟨lines, hflat, hlines, hhistory, hfailure⟩ :=
    Git.Revision.readLog_prints hprint hdistinct hsince
  have hstdout : textLines (Utf8.encode texts.flatten) = lines := by
    rw [hflat, textLines_encode_ofLines hlines]
  obtain ⟨backend, root, config⟩ := r
  obtain rfl : backend = .git := hbackend
  refine ⟨?_, fun v _ => Stamp.utc_spec v.inRange⟩
  have hrun := runOn_history _ w s file since? htags hend rfl (by rw [hstdout]; exact hfailure)
  rw [hrun, hstdout]
  exact congrArg Except.ok hhistory

/-- Two revisions: a rename with a message that looks like a change and ends in blank lines, and one
without a message or a change. -/
theorem history_of_two_printed_revisions :
    let newer : Git.Revision :=
      { hash := "b2", author := "Bob\t<bob@x>", message := "Rename it\nM\tb.c\n \n"
        stamp := ⟨⟨2020, 2, 29, 0, 30, 0, 0⟩, ⟨false, 1, 0, by decide, by decide⟩, by decide, rfl⟩
        change? := some (.pair 'R' "100" "a.c" "b.c" (by decide) (by decide) (by decide) (by decide)
          (by decide) (by decide))
        inRange := by decide +kernel, hash_solid := by decide, author_oneLine := by decide
        message_plain := by decide }
    let older : Git.Revision :=
      { hash := "a1", author := "Ann <ann@x>", message := [], change? := none
        stamp := ⟨⟨1999, 12, 31, 23, 59, 59, 0⟩, ⟨false, 0, 0, by decide, by decide⟩, by decide, rfl⟩
        inRange := by decide +kernel, hash_solid := by decide, author_oneLine := by decide
        message_plain := by decide }
    let texts : List Text :=
      ["\x1eb2\t2020-02-29T00:30:00+01:00\tBob\t<bob@x>\nRename it\nM\tb.c\n \n\x1f\n\nR100\ta.c\tb.c\n\n",
        "\x1ea1\t1999-12-31T23:59:59Z\tAnn <ann@x>\n\x1f\n"]
    let w : World := { outcome := fun _ _ => .exits ⟨0, Utf8.encode texts.flatten, []⟩ }
    let r : Repository := { backend := .git, root := .root }
    ((r.history w .root none).runOn {}).1 = .ok [newer.entry, older.entry] ∧
      newer.entry.message = ["Rename it".toList, "M\tb.c".toList] := by
  intro newer older texts w r
  refine ⟨(history_of_printed_revisions r w {} .root none [newer, older] texts [] rfl rfl ?_
    (by decide) nofun (Or.inl rfl)).1, by decide⟩
  refine .cons ?_ (.cons ?_ .nil)
  · exact ⟨"2020-02-29T00:30:00+01:00".toList, by decide +kernel, [[]], [[]],
      by simp [Git.IsBlankLine], by decide +kernel⟩
  · exact ⟨"1999-12-31T23:59:59Z".toList, by decide +kernel, [], [], by simp, by decide +kernel⟩

end Annals.Repository

import Annals.Proofs.Date.Printed
import Annals.Proofs.Git.Log
import Annals.Proofs.Process.Lines
import Mathlib.Data.List.Forall2

/-!
# Printed Git logs

A `Revision` is what Git knows of one revision of a file. It is printed as a header line, the message
with the mark of its end behind it, and the line that tells of the change, with blank lines around it.
The reader goes through the same three parts, and from the texts printed of revisions, the revisions are
read (`Revision.readLog_prints`).
-/

namespace Annals.Git

/-- What Git knows of a revision of a file. The hash holds no tab or newline, the author no newline, and
no line of the message begins or ends like a record or a message. -/
structure Revision where
  hash : Text
  stamp : Stamp
  author : Text
  message : Text
  change? : Option Change
  inRange : stamp.InRange
  hash_solid : '\t' ∉ hash ∧ '\n' ∉ hash
  author_oneLine : '\n' ∉ author
  message_plain : ∀ line ∈ Text.fields '\n' message,
    line.head? ≠ some recordMarker ∧ line.getLast? ≠ some messageEnd

/-- Whether a line holds nothing but blanks, and does not begin like a record. -/
def IsBlankLine (line : Text) : Prop :=
  line.all isBlank = true ∧ '\n' ∉ line ∧ line.head? ≠ some recordMarker

/-- Whether a bound is the beginning of a hash. -/
def Abbreviates (since? : Option Text) (hash : Text) : Prop :=
  ∃ since ∈ since?, since ≠ [] ∧ since <+: hash

instance (since? : Option Text) (hash : Text) : Decidable (Abbreviates since? hash) :=
  inferInstanceAs (Decidable (∃ since ∈ since?, _))

namespace Revision

/-- The text of a header, with one of the ways to print the date. -/
def header (r : Revision) (date : Text) : Text := r.hash ++ '\t' :: (date ++ '\t' :: r.author)

/-- The lines of the message, with the mark of its end. -/
def messageLines (r : Revision) : List Text := Text.fields '\n' (r.message ++ [messageEnd])

/-- The line that tells of the change, if there is one. -/
def changeLines (r : Revision) : List Text := r.change?.toList.map Change.line

/-- Whether a text is a print of a revision. -/
def Prints (r : Revision) (t : Text) : Prop :=
  ∃ date ∈ stampTexts r.stamp, ∃ before after : List Text,
    (∀ line ∈ before ++ after, IsBlankLine line) ∧
      t = recordMarker :: (r.header date ++ '\n' :: (r.message ++ messageEnd :: '\n' ::
        Text.ofLines (before ++ r.changeLines ++ after)))

/-- The entry of a revision. Blank lines at the end of the message do not belong to it. -/
def entry (r : Revision) : Entry :=
  { revision := r.hash, author := r.author, date := r.stamp.utc
    message := dropEndWhile (fun line => line.trim.isEmpty) (Text.fields '\n' r.message)
    path := r.change?.map Change.path, renamedFrom := r.change?.bind Change.renamedFrom? }

/-! ## The header -/

theorem oneLine_header (r : Revision) {date : Text} (hdate : date ∈ stampTexts r.stamp) :
    '\n' ∉ r.header date := by
  have hblank : '\n' ∉ date := fun hmem => not_isBlank_of_mem_stampTexts hdate hmem (by decide)
  simp [header, r.hash_solid.2, hblank, r.author_oneLine]

theorem openRecord_header (r : Revision) {date : Text} (hdate : date ∈ stampTexts r.stamp) :
    openRecord (r.header date) =
      .record { revision := r.hash, date := r.stamp.utc, author := r.author } := by
  have htab : '\t' ∉ date := fun hmem => not_isBlank_of_mem_stampTexts hdate hmem (by decide)
  have hread : readDate datePatterns date = .ok r.stamp.utc := by
    simpa [Stamp.reading_eq_ok r.inRange] using readDate_stampText hdate [] [] rfl rfl
  have hfields : Text.fieldsUpTo '\t' 2 (r.header date) = [r.hash, date, r.author] := by
    rw [header, Text.fieldsUpTo_append _ _ r.hash_solid.1, Text.fieldsUpTo_append _ _ htab]
    rfl
  unfold openRecord
  rw [hfields]
  simp only [hread]

/-! ## The message -/

theorem exists_messageLines (r : Revision) :
    ∃ init last, Text.fields '\n' r.message = init ++ [last] ∧
      r.messageLines = init ++ [last ++ [messageEnd]] := by
  have hne := Text.fields_ne_nil '\n' r.message
  refine ⟨_, _, (List.dropLast_append_getLast hne).symm, ?_⟩
  exact Text.fields_concat (by decide) _ (List.dropLast_append_getLast hne).symm

theorem foldl_add_message {lines : List Text} {c : Commit} (hc : c.inMessage = true)
    (h : ∀ line ∈ lines, line.getLast? ≠ some messageEnd) :
    lines.foldl Commit.add c = { c with message := c.message ++ lines } := by
  induction lines generalizing c with
  | nil => simp
  | cons line lines ih =>
    obtain ⟨hline, hlines⟩ := List.forall_mem_cons.1 h
    have hadd : c.add line = { c with message := c.message ++ [line] } := by
      rw [Commit.add, if_pos hc, Commit.addMessage, if_neg hline]
    have hrest := ih (c := { c with message := c.message ++ [line] }) hc hlines
    rw [List.foldl_cons, hadd, hrest]
    simp

/-- After its lines, the message is complete but for blank lines at its end. -/
theorem foldl_add_messageLines (r : Revision) {c : Commit} (hc : c.inMessage = true)
    (hempty : c.message = []) :
    ∃ message, r.messageLines.foldl Commit.add c = { c with message, inMessage := false } ∧
      dropEndWhile (fun line => line.trim.isEmpty) message =
        dropEndWhile (fun line => line.trim.isEmpty) (Text.fields '\n' r.message) := by
  obtain ⟨init, last, hfields, hlines⟩ := r.exists_messageLines
  have hinit : ∀ line ∈ init, line.getLast? ≠ some messageEnd := fun line hline =>
    (r.message_plain line (by rw [hfields]; exact List.mem_append_left _ hline)).2
  have hend : ∀ c : Commit, c.inMessage = true → c.add (last ++ [messageEnd]) =
      { c with
        message := if last.isEmpty then c.message else c.message ++ [last]
        inMessage := false } := by
    intro c hc
    rw [Commit.add, if_pos hc, Commit.addMessage, if_pos List.getLast?_concat]
    simp only [List.dropLast_concat]
  have hfold : r.messageLines.foldl Commit.add c =
      { c with
        message := if last.isEmpty then init else init ++ [last]
        inMessage := false } := by
    rw [hlines, List.foldl_append, foldl_add_message hc hinit, hempty, List.nil_append,
      List.foldl_cons, List.foldl_nil]
    exact hend { c with message := init } hc
  refine ⟨_, hfold, ?_⟩
  rw [hfields]
  split
  · next hlast =>
    -- an empty last line is not added, but would be dropped
    obtain rfl := List.isEmpty_iff.1 hlast
    exact (dropEndWhile_append init (by simp [Text.trim, Text.trimStart, Text.trimEnd, dropEndWhile])).symm
  · rfl

/-! ## The change -/

theorem add_blankLine {line : Text} (h : IsBlankLine line) {c : Commit} (hc : c.inMessage = false) :
    c.add line = c := by
  obtain ⟨hblank, hline, -⟩ := h
  have hstatus : FileStatus.ofLine? line = none := by
    rw [FileStatus.ofLine?, oneLine?_of_notMem hline, Option.bind_some]
    cases line with
    | nil => rfl
    | cons d ds =>
      have hd : isBlank d = true := List.all_eq_true.1 hblank d List.mem_cons_self
      have hsolid : (['R', 'C', 'A', 'M', 'D', 'T', 'U', 'X'].all fun l => !isBlank l) = true := by
        decide
      have hletters : ∀ l ∈ ['R', 'C', 'A', 'M', 'D', 'T', 'U', 'X'], d ≠ l := by
        rintro l hl rfl
        simpa [hd] using List.all_eq_true.1 hsolid d hl
      simp only [List.forall_mem_cons] at hletters
      obtain ⟨hR, hC, hA, hM, hD, hT, hU, hX, -⟩ := hletters
      simp [hR, hC, hA, hM, hD, hT, hU, hX]
  have hnot : ¬c.inMessage = true := by simp [hc]
  rw [Commit.add, if_neg hnot, Commit.addStatus, hstatus]

theorem foldl_add_blankLines {lines : List Text} (h : ∀ line ∈ lines, IsBlankLine line) {c : Commit}
    (hc : c.inMessage = false) : lines.foldl Commit.add c = c := by
  induction lines with
  | nil => rfl
  | cons line lines ih =>
    obtain ⟨hline, hlines⟩ := List.forall_mem_cons.1 h
    rw [List.foldl_cons, add_blankLine hline hc, ih hlines]

theorem foldl_add_changeLines (r : Revision) {c : Commit} (hc : c.inMessage = false)
    (hpath : c.path = none) (hfrom : c.renamedFrom = none) :
    r.changeLines.foldl Commit.add c =
      { c with
        path := r.change?.map Change.path
        renamedFrom := r.change?.bind Change.renamedFrom? } := by
  have hnot : ¬c.inMessage = true := by simp [hc]
  cases h : r.change? with
  | none =>
    cases c
    cases hpath
    cases hfrom
    simp [changeLines, h]
  | some change =>
    simp only [changeLines, h, Option.toList_some, List.map_cons, List.map_nil, List.foldl_cons,
      List.foldl_nil, Option.map_some, Option.bind_some]
    rw [Commit.add, if_neg hnot, Commit.addStatus, change.ofLine?_line]
    cases hr : change.renamedFrom? with
    | none => simp [← hfrom]
    | some old => simp

/-! ## Printed records -/

theorem plain_lines (r : Revision) {before after : List Text}
    (hblank : ∀ line ∈ before ++ after, IsBlankLine line) :
    ∀ line ∈ r.messageLines ++ (before ++ r.changeLines ++ after),
      line.head? ≠ some recordMarker ∧ '\n' ∉ line := by
  obtain ⟨hbefore, hafter⟩ := List.forall_mem_append.1 hblank
  obtain ⟨init, last, hfields, hlines⟩ := r.exists_messageLines
  have hmessage := r.message_plain
  rw [hfields] at hmessage
  intro line hline
  simp only [List.mem_append] at hline
  rcases hline with hline | (hline | hline) | hline
  · refine ⟨?_, Text.sep_notMem_of_mem_fields hline⟩
    rw [hlines] at hline
    rcases List.mem_append.1 hline with hline | hline
    · exact (hmessage line (List.mem_append_left _ hline)).1
    · rw [List.mem_singleton.1 hline]
      cases last with
      | nil => decide
      | cons c cs => exact (hmessage (c :: cs) (by simp)).1
  · exact (hbefore line hline).2.symm
  · obtain ⟨change, -, rfl⟩ := List.mem_map.1 hline
    exact ⟨change.head?_line, change.oneLine⟩
  · exact (hafter line hline).2.symm

/-- What is printed of a revision are lines, from which its entry is read. -/
theorem Prints.exists_block {r : Revision} {t : Text} (h : r.Prints t) :
    ∃ block, t = Text.ofLines block ∧ logFormat.Writes r.entry block ∧ ∀ line ∈ block, '\n' ∉ line := by
  obtain ⟨date, hdate, before, after, hblank, rfl⟩ := h
  have hplain := r.plain_lines hblank
  refine ⟨(recordMarker :: r.header date) :: (r.messageLines ++ (before ++ r.changeLines ++ after)),
    ?_, ?_, ?_⟩
  · have hlast : r.message ++ messageEnd :: '\n' :: Text.ofLines (before ++ r.changeLines ++ after) =
        Text.ofLines (r.messageLines ++ (before ++ r.changeLines ++ after)) := by
      rw [Text.ofLines_append r.messageLines, messageLines, Text.ofLines_fields]
      simp
    rw [hlast]
    simp [Text.ofLines]
  · refine ⟨_, r.header date, _, _, rfl, rfl, r.openRecord_header hdate, ?_, ?_⟩
    · exact fun line hline => isHeader_eq_false (hplain line hline).1
    · obtain ⟨message, hfold, hdrop⟩ := foldl_add_messageLines r
        (c := { revision := r.hash, date := r.stamp.utc, author := r.author }) rfl rfl
      obtain ⟨hbefore, hafter⟩ := List.forall_mem_append.1 hblank
      have hadd : logFormat.extend = Commit.add := rfl
      rw [hadd, List.foldl_append, hfold, List.foldl_append, List.foldl_append,
        foldl_add_blankLines hbefore rfl, foldl_add_changeLines r rfl rfl rfl,
        foldl_add_blankLines hafter rfl]
      simp only [logFormat, Commit.entry, hdrop]
      rfl
  · refine List.forall_mem_cons.2 ⟨?_, fun line hline => (hplain line hline).2⟩
    exact List.not_mem_cons_of_ne_of_not_mem (by decide) (r.oneLine_header hdate)

theorem exists_blocks {rs : List Revision} {ts : List Text} (h : List.Forall₂ Prints rs ts) :
    ∃ blocks : List (List Text), ts.flatten = Text.ofLines blocks.flatten ∧
      List.Forall₂ logFormat.Writes (rs.map entry) blocks ∧ ∀ line ∈ blocks.flatten, '\n' ∉ line := by
  induction h with
  | nil => exact ⟨[], rfl, .nil, by simp⟩
  | cons hprints _ ih =>
    obtain ⟨block, rfl, hwrites, hline⟩ := hprints.exists_block
    obtain ⟨blocks, hflat, hblocks, hlines⟩ := ih
    refine ⟨block :: blocks, ?_, .cons hwrites hblocks, ?_⟩
    · rw [List.flatten_cons, List.flatten_cons, hflat, Text.ofLines_append]
    · rw [List.flatten_cons]
      exact List.forall_mem_append.2 ⟨hline, hlines⟩

theorem revisions_entries (rs : List Revision) :
    History.revisions (rs.map entry) = rs.map (·.hash) := by
  simp [History.revisions, entry]

theorem any_excludes (since? : Option Text) (hash : Text) :
    since?.any (logFormat.excludes · hash) = decide (Abbreviates since? hash) := by
  rw [Bool.eq_iff_iff, decide_eq_true_iff, Option.any_eq_true]
  simp [logFormat, Abbreviates, Text.startsWith_iff]

/-- From prints of revisions with distinct hashes, those are read whose hashes the bound does not
begin. -/
theorem readLog_prints_filter {rs : List Revision} {ts : List Text} (since? : Option Text)
    (h : List.Forall₂ Prints rs ts) (hdistinct : (rs.map (·.hash)).Nodup) :
    ∃ lines : List Text, ts.flatten = Text.ofLines lines ∧ (∀ line ∈ lines, '\n' ∉ line) ∧
      (logFormat.readLog since? lines).result =
        (rs.filter fun r => ¬Abbreviates since? r.hash).map entry ∧
        (logFormat.readLog since? lines).failure? = none := by
  obtain ⟨blocks, hflat, hwrites, hlines⟩ := exists_blocks h
  rw [← revisions_entries] at hdistinct
  obtain ⟨hread, hfailure⟩ := HistoryFormat.readLog_of_writes_filter graded_logFormat since?
    hwrites hdistinct
  refine ⟨blocks.flatten, hflat, hlines, hread.trans ?_, hfailure⟩
  rw [List.filter_map]
  apply congrArg (List.map entry)
  apply List.filter_congr
  intro r _
  rw [decide_not, ← any_excludes]
  rfl

/-- From prints of revisions with distinct hashes that are not excluded, all of them are read. -/
theorem readLog_prints {rs : List Revision} {ts : List Text} {since? : Option Text}
    (h : List.Forall₂ Prints rs ts) (hdistinct : (rs.map (·.hash)).Nodup)
    (hsince : ∀ since ∈ since?, since ≠ [] → ∀ r ∈ rs, ¬since <+: r.hash) :
    ∃ lines : List Text, ts.flatten = Text.ofLines lines ∧ (∀ line ∈ lines, '\n' ∉ line) ∧
      (logFormat.readLog since? lines).result = rs.map entry ∧
        (logFormat.readLog since? lines).failure? = none := by
  obtain ⟨lines, hflat, hlines, hread, hfailure⟩ := readLog_prints_filter since? h hdistinct
  refine ⟨lines, hflat, hlines, hread.trans (congrArg (List.map entry) ?_), hfailure⟩
  rw [List.filter_eq_self]
  intro r hr
  apply decide_eq_true
  rintro ⟨since, hmem, hne, hbegins⟩
  exact hsince since hmem hne r hr hbegins

end Revision

end Annals.Git

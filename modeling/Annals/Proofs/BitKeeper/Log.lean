import Annals.Proofs.Date.Printed
import Annals.Proofs.History.Headers
import Annals.Proofs.History.Isolation
import Mathlib.Data.List.Forall2

/-!
# BitKeeper logs

What the reader relies on of the format of BitKeeper logs: which lines are headers
(`isHeader_logFormat`), how their dates decide what they open (`openRecord_byDate`), and that only
dropped records are warned about (`graded_logFormat`). A `Delta` is what BitKeeper knows of one revision
of a file; from the lines it prints of deltas, the deltas are read (`readLog_prints`).
-/

namespace Annals.BitKeeper

/-! ## The format -/

theorem marked?_eq_some_iff {letter : Char} {line rest : Text} :
    marked? letter line = some rest ↔ line = letter :: ' ' :: rest ∨ line = [letter] ∧ rest = [] := by
  rcases line with _ | ⟨c, _ | ⟨d, cs⟩⟩
  · simp [marked?]
  · by_cases hc : c = letter <;> simp [marked?, hc, eq_comm (a := []) (b := rest)]
  · by_cases hc : c = letter ∧ d = ' ' <;> simp [marked?, hc]
    grind

theorem isHeader_logFormat {line : Text} :
    logFormat.isHeader line = true ↔ line = ['D'] ∨ ∃ rest, line = 'D' :: ' ' :: rest := by
  simp only [HistoryFormat.isHeader, logFormat, Option.isSome_iff_exists, marked?_eq_some_iff]
  grind

/-- The date in the text of a header that has all its fields. -/
def dateField? (header : Text) : Option Text :=
  match Text.fields '\t' header with
  | _ :: _ :: date :: _ :: _ => some date
  | _ => none

/-- What a header opens is decided by its date. -/
theorem openRecord_byDate (header : Text) :
    Opened.ByDate [datePattern] (dateField? header) (openRecord header) := by
  unfold openRecord dateField?
  rcases Text.fields '\t' header with _ | ⟨path, _ | ⟨revision, _ | ⟨date, _ | ⟨author, more⟩⟩⟩⟩
  case cons.cons.cons.cons => exact .of_readDate rfl
  all_goals exact .missing rfl

theorem level_ignored (output line : Text) : ∀ note ∈ ignored output line, note.level ≠ .warning := by
  intro note h
  unfold ignored at h
  split at h
  · exact absurd h List.not_mem_nil
  · rw [List.mem_singleton.1 h]
    exact Level.noConfusion

theorem graded_logFormat : logFormat.Graded where
  remarks line := by
    simp only [logFormat]
    split
    · exact fun _ h => absurd h List.not_mem_nil
    · exact level_ignored _ line
  dropped header _ h := (openRecord_byDate header).level_of_eq h
  duplicate _ := rfl

/-- What every entry of a log has: a date in UTC, no tags yet, and a changeset and a former path only if
they are not empty. -/
structure IsRead (e : Entry) : Prop where
  utc : e.date.offset? = some 0
  tags : e.tags = []
  changeset : e.changeset ≠ some []
  renamedFrom : e.renamedFrom ≠ some []

theorem field?_ne_some_nil (fields : List Text) (n : Nat) : field? fields n ≠ some [] := by
  unfold field?
  split <;> simp

theorem maintains_logFormat : logFormat.Maintains IsRead where
  opens header e ho := by
    change openRecord header = .record e at ho
    unfold openRecord at ho
    split at ho
    · split at ho
      · next hread =>
        obtain rfl := Opened.record.inj ho
        exact ⟨offset?_of_readDate hread, rfl, field?_ne_some_nil _ 0, field?_ne_some_nil _ 1⟩
      · contradiction
      · contradiction
    · contradiction
  extend e line he := by
    change IsRead (logFormat.extend e line)
    simp only [logFormat]
    -- a line of the comment changes nothing else
    split
    · exact ⟨he.utc, he.tags, he.changeset, he.renamedFrom⟩
    · exact he

/-! ## Printed records -/

/-- What BitKeeper knows of a revision of a file. No text but the comments holds a tab, and none a
newline. -/
structure Delta where
  path : Text
  revision : Text
  stamp : Stamp
  author : Text
  /-- The changeset, if the revision is committed. -/
  changeset? : Option Text
  /-- The former path, if the revision renamed the file. -/
  renamedFrom? : Option Text
  /-- The lines of the comment. -/
  comments : List Text
  inRange : stamp.InRange
  solid : ∀ t ∈ path :: revision :: author :: (changeset?.toList ++ renamedFrom?.toList),
    '\t' ∉ t ∧ '\n' ∉ t
  nonempty : ∀ t ∈ changeset?.toList ++ renamedFrom?.toList, t ≠ []
  oneLine : ∀ comment ∈ comments, '\n' ∉ comment

namespace Delta

/-- The fields of a header. The changeset is left empty if there is none. -/
def fields (d : Delta) : List Text :=
  d.path :: d.revision :: stampText d.stamp :: d.author :: d.changeset?.getD [] ::
    d.renamedFrom?.toList

/-- The header line of a delta. -/
def headerLine (d : Delta) : Text := 'D' :: ' ' :: Text.join ['\t'] d.fields

/-- The ways to print a line of a comment. The blank behind the letter may be missing if nothing
follows. -/
def commentLines (comment : Text) : List Text :=
  ('C' :: ' ' :: comment) :: if comment = [] then [['C']] else []

/-- Whether a block of lines is a print of a delta. -/
def Prints (d : Delta) (block : List Text) : Prop :=
  ∃ body, block = d.headerLine :: body ∧
    List.Forall₂ (fun comment line => line ∈ commentLines comment) d.comments body

/-- The entry of a delta. -/
def entry (d : Delta) : Entry :=
  { revision := d.revision, author := d.author, date := d.stamp.utc, message := d.comments
    path := some d.path, renamedFrom := d.renamedFrom?, changeset := d.changeset? }

theorem solid_changeset (d : Delta) : '\t' ∉ d.changeset?.getD [] ∧ '\n' ∉ d.changeset?.getD [] := by
  cases h : d.changeset? with
  | none => exact ⟨List.not_mem_nil, List.not_mem_nil⟩
  | some t => exact d.solid t (by simp [h])

theorem solid_fields (d : Delta) : ∀ t ∈ d.fields, '\t' ∉ t ∧ '\n' ∉ t := by
  have hstamp {c : Char} (hc : isBlank c) (hne : c ≠ ' ') : c ∉ stampText d.stamp := fun hmem =>
    (not_isBlank_of_mem_stampText hmem).elim hne fun hsolid => hsolid hc
  intro t ht
  simp only [fields, List.mem_cons] at ht
  rcases ht with rfl | rfl | rfl | rfl | rfl | ht
  · exact d.solid _ (by simp)
  · exact d.solid _ (by simp)
  · exact ⟨hstamp (by decide) (by decide), hstamp (by decide) (by decide)⟩
  · exact d.solid _ (by simp)
  · exact d.solid_changeset
  · exact d.solid t (by simp at ht; simp [ht])

theorem openRecord_fields (d : Delta) :
    openRecord (Text.join ['\t'] d.fields) = .record { d.entry with message := [] } := by
  have hfields : Text.fields '\t' (Text.join ['\t'] d.fields) = d.fields :=
    Text.fields_join (List.cons_ne_nil _ _) fun t ht => (d.solid_fields t ht).1
  have hdate : readDate [datePattern] (stampText d.stamp) = .ok d.stamp.utc := by
    simpa [Stamp.reading_eq_ok d.inRange] using readDate_stampText d.stamp [] [] rfl rfl
  have hfield {t? : Option Text} (h : ∀ t ∈ t?, t ≠ []) (before : List Text) :
      field? (before ++ t?.toList) before.length = t? := by
    cases t? with
    | none => simp [field?]
    | some t =>
      cases t with
      | nil => exact absurd rfl (h [] rfl)
      | cons c cs => simp [field?]
  have hchangeset : field? (d.changeset?.getD [] :: d.renamedFrom?.toList) 0 = d.changeset? := by
    cases h : d.changeset? with
    | none => rfl
    | some t =>
      cases t with
      | nil => exact absurd rfl (d.nonempty [] (by simp [h]))
      | cons c cs => rfl
  have hrenamed : field? (d.changeset?.getD [] :: d.renamedFrom?.toList) 1 = d.renamedFrom? :=
    hfield (fun t ht => d.nonempty t (by simp [Option.mem_def.1 ht])) [d.changeset?.getD []]
  unfold openRecord
  rw [hfields, fields]
  simp only [hdate, hchangeset, hrenamed]
  rfl

/-- The lines of a comment are added as they were given, whatever they look like. -/
theorem foldl_extend {comments body : List Text}
    (h : List.Forall₂ (fun comment line => line ∈ commentLines comment) comments body) (e : Entry) :
    body.foldl logFormat.extend e = { e with message := e.message ++ comments } := by
  induction h generalizing e with
  | nil => simp
  | @cons comment line _ _ hline _ ih =>
    have hmarked : marked? 'C' line = some comment := by
      rcases List.mem_cons.1 hline with rfl | hline
      · exact marked?_eq_some_iff.2 (Or.inl rfl)
      · split at hline
        · next hempty =>
          obtain rfl := List.mem_singleton.1 hline
          exact marked?_eq_some_iff.2 (Or.inr ⟨rfl, hempty⟩)
        · exact absurd hline List.not_mem_nil
    have hadd : logFormat.extend e line = { e with message := e.message ++ [comment] } := by
      simp only [logFormat, hmarked]
    rw [List.foldl_cons, ih, hadd]
    simp

theorem body_plain {comments body : List Text}
    (h : List.Forall₂ (fun comment line => line ∈ commentLines comment) comments body)
    (hcomments : ∀ comment ∈ comments, '\n' ∉ comment) :
    ∀ line ∈ body, logFormat.isHeader line = false ∧ '\n' ∉ line := by
  induction h with
  | nil => simp
  | @cons comment line _ _ hline _ ih =>
    obtain ⟨hcomment, hrest⟩ := List.forall_mem_cons.1 hcomments
    refine List.forall_mem_cons.2 ⟨?_, ih hrest⟩
    rcases List.mem_cons.1 hline with rfl | hline
    · exact ⟨rfl, by simp [hcomment]⟩
    · split at hline
      · obtain rfl := List.mem_singleton.1 hline
        exact ⟨rfl, by decide⟩
      · exact absurd hline List.not_mem_nil

/-- A print of a delta is a record from which its entry is read. -/
theorem Prints.writes {d : Delta} {block : List Text} (h : d.Prints block) :
    logFormat.Writes d.entry block := by
  obtain ⟨body, rfl, hbody⟩ := h
  have hmarked : marked? 'D' d.headerLine = some (Text.join ['\t'] d.fields) :=
    marked?_eq_some_iff.2 (Or.inl rfl)
  refine ⟨d.headerLine, Text.join ['\t'] d.fields, { d.entry with message := [] }, body, rfl,
    hmarked, d.openRecord_fields, fun line hline => (body_plain hbody d.oneLine line hline).1, ?_⟩
  exact foldl_extend hbody _

theorem Prints.oneLine {d : Delta} {block : List Text} (h : d.Prints block) :
    ∀ line ∈ block, '\n' ∉ line := by
  obtain ⟨body, rfl, hbody⟩ := h
  refine List.forall_mem_cons.2 ⟨?_, fun line hline => (body_plain hbody d.oneLine line hline).2⟩
  have hjoin : '\n' ∉ Text.join ['\t'] d.fields := by
    refine Text.notMem_join (by decide) fun t ht => (d.solid_fields t ht).2
  simpa [headerLine] using hjoin

theorem oneLine_flatten {deltas : List Delta} {blocks : List (List Text)}
    (h : List.Forall₂ Prints deltas blocks) : ∀ line ∈ blocks.flatten, '\n' ∉ line := by
  induction h with
  | nil => simp
  | cons hprints _ ih =>
    rw [List.flatten_cons]
    exact List.forall_mem_append.2 ⟨hprints.oneLine, ih⟩

theorem revisions_entries (deltas : List Delta) :
    History.revisions (deltas.map entry) = deltas.map (·.revision) := by
  simp [History.revisions, entry]

/-- From prints of deltas of distinct revisions that are not excluded, all of them are read. -/
theorem readLog_prints {deltas : List Delta} {blocks : List (List Text)} {since? : Option Text}
    (h : List.Forall₂ Prints deltas blocks) (hdistinct : (deltas.map (·.revision)).Nodup)
    (hsince : ∀ since ∈ since?, since ∉ deltas.map (·.revision)) :
    (logFormat.readLog since? blocks.flatten).result = deltas.map entry ∧
      (logFormat.readLog since? blocks.flatten).failure? = none := by
  have hwrites : List.Forall₂ logFormat.Writes (deltas.map entry) blocks :=
    List.forall₂_map_left_iff.2 (h.imp fun _ _ hprints => hprints.writes)
  refine HistoryFormat.readLog_of_writes graded_logFormat hwrites ?_ ?_
  · rwa [revisions_entries]
  · intro e he
    obtain ⟨d, hd, rfl⟩ := List.mem_map.1 he
    cases since? with
    | none => rfl
    | some since =>
      have hne : d.entry.revision ≠ since := fun heq =>
        hsince since rfl (heq ▸ List.mem_map_of_mem hd)
      exact decide_eq_false hne

end Delta

end Annals.BitKeeper

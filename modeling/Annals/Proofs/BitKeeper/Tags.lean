import Annals.BitKeeper.Tags
import Annals.Proofs.BitKeeper.Log

/-!
# BitKeeper tags

Reading tags fails at a header whose date leaves the years 1 to 9999 in UTC, and nowhere else
(`failure?_feed`). A header whose date cannot be read hides the tags behind it and leaves all others as
they are (`warnsOnceMore_readOn`). All dates that are read are in UTC, so that the records can be ordered
(`sort?_close`).
-/

namespace Annals.BitKeeper.TagReader

/-! ## Headers -/

/-- The date in the text of a header that has its fields. -/
def dateField? (header : Text) : Option Text :=
  match Text.fields '\t' header with
  | _ :: date :: _ => some date
  | _ => none

/-- The date of a header line. -/
def date? (line : Text) : Option Text := (marked? 'D' line).bind dateField?

/-- Whether a line is a header whose date leaves the years 1 to 9999 when it is converted to UTC. -/
def Overflows (line : Text) : Prop :=
  ∃ date ∈ date? line, readDate [datePattern] date = .error .outOfRange

instance (line : Text) : Decidable (Overflows line) :=
  inferInstanceAs (Decidable (∃ date ∈ date? line, _))

/-- What a header opens is decided by its date. -/
theorem openRecord_byDate (header : Text) :
    Opened.ByDate [datePattern] (dateField? header) (openRecord header) := by
  unfold openRecord dateField?
  rcases Text.fields '\t' header with _ | ⟨revision, _ | ⟨date, more⟩⟩
  case cons.cons => exact .of_readDate rfl
  all_goals exact .missing rfl

theorem isZoned_of_openRecord {header : Text} {tag : Tag} (h : openRecord header = .record tag) :
    tag.date.isZoned = true := by
  unfold openRecord at h
  split at h
  · split at h
    · next hread =>
      cases h
      exact isZoned_of_readDate hread
    · exact nomatch h
    · exact nomatch h
  · exact nomatch h

theorem failure?_feed (r : TagReader) (line : Text) :
    (r.feed line).failure? = if Overflows line then some .dateOutOfRange else none := by
  cases hm : marked? 'D' line with
  | none =>
    have hnot : ¬Overflows line := by
      rintro ⟨date, hdate, -⟩
      simp [date?, hm] at hdate
    rw [if_neg hnot]
    simp only [feed, hm]
    cases marked? 'T' line <;> rfl
  | some header =>
    have hiff : Overflows line ↔ openRecord header = .failed .dateOutOfRange := by
      simp [Overflows, date?, hm, (openRecord_byDate header).eq_failed_iff]
    simp only [feed, hm]
    cases ho : openRecord header with
    | record tag => rw [if_neg (by simp [hiff, ho])]
    | dropped note => rw [if_neg (by simp [hiff, ho])]
    | failed f =>
      obtain ⟨rfl, -⟩ := (openRecord_byDate header).eq_failed_iff.1 ho
      rw [if_pos (hiff.2 ho)]

/-- Of a line that is not read there is a warning at most. -/
theorem not_isError_feed (r : TagReader) (line : Text) :
    ∀ note ∈ (r.feed line).notes, note.isError = false := by
  unfold feed
  split
  · next header _ =>
    dsimp only
    split
    · exact List.forall_mem_nil _
    · next note hnote =>
      have hlevel := (openRecord_byDate header).level_of_eq hnote
      exact List.forall_mem_singleton.mpr (by simp [Note.isError, hlevel])
    · exact List.forall_mem_nil _
  · split
    · exact List.forall_mem_nil _
    · unfold ignored
      split
      · exact List.forall_mem_nil _
      · exact List.forall_mem_singleton.mpr rfl

/-! ## Closing -/

theorem pending?_close (r : TagReader) : r.close.pending? = none := by
  unfold close
  split
  · next h => exact h
  · split <;> rfl

theorem close_of_none {r : TagReader} (h : r.pending? = none) : r.close = r := by
  rw [close, h]

theorem close_close (r : TagReader) : r.close.close = r.close := close_of_none (pending?_close r)

/-- The records of a reader, with the pending one. -/
def held (r : TagReader) : List Tag := r.records ++ r.pending?.toList

theorem mem_records_close {r : TagReader} {tag : Tag} (h : tag ∈ r.close.records) : tag ∈ r.held := by
  unfold close at h
  split at h
  · exact List.mem_append_left _ h
  · next tag' hpending =>
    split at h
    · exact List.mem_append_left _ h
    · rcases List.mem_append.1 h with h | h
      · exact List.mem_append_left _ h
      · simp [held, hpending, List.mem_singleton.1 h]

/-! ## Reading -/

/-- The notes about a line that is no header. -/
def remarks (line : Text) : List Note :=
  match marked? 'T' line with
  | some _ => []
  | none => ignored "bk tags" line

/-- What a reader gives after further lines. -/
def readOn (r : TagReader) (lines : List Text) : Reading (List Tag) :=
  let fed := Fed.all feed r lines
  ⟨fed.state.tags.1, fed.notes, fed.failure?⟩

/-- The dates of all records are in UTC. -/
theorem isZoned_held (lines : List Text) :
    ∀ tag ∈ (Fed.all feed {} lines).state.held, tag.date.isZoned = true := by
  refine Fed.all_invariant (P := fun r => ∀ tag ∈ held r, tag.date.isZoned = true) ?_ (by simp [held])
    lines
  intro r line hr tag htag
  -- a header closes the pending record and may open another; a name changes no date
  unfold feed at htag
  split at htag
  · next header _ =>
    have hrecords : ∀ tag ∈ r.close.records, tag.date.isZoned = true := fun tag h =>
      hr tag (mem_records_close h)
    have hclosed : r.close.held = r.close.records := by simp [held, pending?_close]
    dsimp only at htag
    split at htag
    · next opened ho =>
      rcases List.mem_append.1 htag with h | h
      · exact hrecords tag h
      · obtain rfl : tag = opened := by simpa using h
        exact isZoned_of_openRecord ho
    · exact hrecords tag (hclosed ▸ htag)
    · exact hrecords tag (hclosed ▸ htag)
  · split at htag
    · next name _ =>
      unfold TagReader.name at htag
      split at htag
      · exact hr tag htag
      · rcases List.mem_append.1 htag with h | h
        · exact hr tag (List.mem_append_left _ h)
        · cases hp : r.pending? with
          | none => simp [hp] at h
          | some p =>
            have hold : p.date.isZoned = true := hr p (by simp [held, hp])
            obtain rfl : tag = { p with names := p.names ++ [name] } := by simpa [hp] using h
            exact hold
    · exact hr tag htag

/-- The records that were read can be ordered. -/
theorem sort?_close (lines : List Text) :
    Tag.sort? (Fed.all feed {} lines).state.close.records = some (readOn {} lines).result :=
  Tag.sort?_of_isZoned fun tag h => isZoned_held lines tag (mem_records_close h)

/-! ## Dropping records -/

theorem level_remarks (line : Text) : ∀ note ∈ remarks line, note.level ≠ .warning := by
  unfold remarks
  split
  · exact fun _ h => absurd h List.not_mem_nil
  · exact level_ignored _ line

theorem readOn_body {r : TagReader} (hp : r.pending? = none) {body : List Text}
    (h : ∀ line ∈ body, marked? 'D' line = none) (rest : List Text) :
    readOn r (body ++ rest) = (readOn r rest).after (body.flatMap remarks) := by
  induction body with
  | nil => rfl
  | cons line body ih =>
    obtain ⟨hline, hbody⟩ := List.forall_mem_cons.1 h
    have hstep : r.feed line = ⟨r, remarks line, none⟩ := by
      simp only [feed, hline, remarks]
      cases ht : marked? 'T' line with
      | none => rfl
      | some name =>
        have hname : r.name name = r := by
          unfold TagReader.name
          split
          · rfl
          · rw [hp, Option.map_none, ← hp]
        simp only [hname]
    rw [List.flatMap_cons, ← Reading.after_after, ← ih hbody]
    simp [readOn, Fed.all, hstep, Reading.after]

/-- At the end and before a header, a pending record may as well be closed at once. -/
theorem readOn_close (r : TagReader) {lines : List Text}
    (hl : ∀ line ∈ lines.head?, ∃ header, marked? 'D' line = some header) :
    readOn r lines = readOn r.close lines := by
  cases lines with
  | nil => simp [readOn, Fed.all, tags, close_close]
  | cons line lines =>
    obtain ⟨header, hm⟩ := hl line rfl
    have hstep : r.feed line = r.close.feed line := by simp only [feed, hm, close_close]
    simp only [readOn, Fed.all, hstep]

/-- A record with a date that no pattern reads leaves nothing but a warning: all else is read as if it
was not there. -/
theorem warnsOnceMore_readOn {before body after : List Text} {line date t : Text}
    (hbefore : (readOn {} before).failure? = none) (hdate : date? line = some date)
    (hread : readDate [datePattern] date = .error (.unparseable t))
    (hbody : ∀ line ∈ body, marked? 'D' line = none)
    (hafter : ∀ line ∈ after.head?, ∃ header, marked? 'D' line = some header) :
    (readOn {} (before ++ line :: body ++ after)).WarnsOnceMore (readOn {} (before ++ after)) := by
  obtain ⟨header, hm, hfield⟩ := Option.bind_eq_some_iff.1 hdate
  have hrefused : Opened.Refused [datePattern] (dateField? header) := hfield ▸ .unreadable hread
  obtain ⟨note, ho⟩ := (openRecord_byDate header).exists_eq_dropped_iff.2 hrefused
  have happend (rest : List Text) : readOn {} (before ++ rest) =
      (readOn (Fed.all feed {} before).state rest).after (Fed.all feed {} before).notes := by
    rw [readOn, Fed.all_append hbefore]
    rfl
  rw [List.append_assoc, happend, happend]
  generalize (Fed.all feed {} before).state = r
  have hstep : r.feed line = ⟨r.close, [note], none⟩ := by simp only [feed, hm, ho]
  have hcons : readOn r (line :: body ++ after) =
      (readOn r.close (body ++ after)).after [note] := by
    simp [readOn, Fed.all, hstep, Reading.after]
  rw [hcons, readOn_body (pending?_close r) hbody, readOn_close r hafter, Reading.after_after,
    Reading.after_after, ← List.append_cons]
  exact Reading.warnsOnceMore_after ((openRecord_byDate header).level_of_eq ho)
    (Reading.filter_flatMap_eq_nil level_remarks body) _ _

end Annals.BitKeeper.TagReader

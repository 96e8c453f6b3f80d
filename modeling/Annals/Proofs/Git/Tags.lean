import Annals.Git.Tags
import Annals.Proofs.Date.Stamp
import Annals.Proofs.Process.Feeding

/-!
# Git tags

Every line is a record of its own. Reading fails at a line whose date leaves the years 1 to 9999 in UTC,
and nowhere else (`failure?_feed`); a line whose date cannot be read leaves all others as they are
(`warnsOnceMore_readOn`). All dates that are read are in UTC, so that the records can be ordered
(`sort?_records`).
-/

namespace Annals.Git.TagReader

/-! ## Lines -/

/-- The date of a line that has all its fields. -/
def date? (line : Text) : Option Text :=
  match Text.fieldsUpTo '\t' 3 line with
  | [_, _, date, _] => some date
  | _ => none

/-- Whether the date of a line leaves the years 1 to 9999 when it is converted to UTC. -/
def Overflows (line : Text) : Prop :=
  ∃ date ∈ date? line, readDate datePatterns date = .error .outOfRange

instance (line : Text) : Decidable (Overflows line) :=
  inferInstanceAs (Decidable (∃ date ∈ date? line, _))

theorem ne_nil_of_date? {line date : Text} (h : date? line = some date) : ¬line.isEmpty = true := by
  intro hempty
  obtain rfl := List.isEmpty_iff.1 hempty
  exact nomatch h

theorem date?_eq_some {line date : Text} (h : date? line = some date) :
    ∃ object peeled name, Text.fieldsUpTo '\t' 3 line = [object, peeled, date, name] := by
  unfold date? at h
  split at h
  · next hfields =>
    obtain rfl := Option.some.inj h
    exact ⟨_, _, _, hfields⟩
  · exact nomatch h

theorem failure?_feed (r : TagReader) (line : Text) :
    (r.feed line).failure? = if Overflows line then some .dateOutOfRange else none := by
  cases hd : date? line with
  | none =>
    have hnot : ¬Overflows line := by
      rintro ⟨date, hdate, -⟩
      simp [hd] at hdate
    rw [if_neg hnot]
    unfold feed
    split
    · rfl
    · split
      · next hfields => simp [date?, hfields] at hd
      · rfl
  | some date =>
    have hiff : Overflows line ↔ readDate datePatterns date = .error .outOfRange := by
      simp [Overflows, hd]
    obtain ⟨object, peeled, name, hfields⟩ := date?_eq_some hd
    unfold feed
    rw [if_neg (ne_nil_of_date? hd), hfields]
    dsimp only
    cases hread : readDate datePatterns date with
    | ok m =>
      have hnot : ¬Overflows line := by simp [hiff, hread]
      rw [if_neg hnot]
    | error fault =>
      cases fault with
      | unparseable t =>
        have hnot : ¬Overflows line := by simp [hiff, hread]
        rw [if_neg hnot]
      | outOfRange => rw [if_pos (hiff.2 hread)]

/-- Of a line that is not read there is a warning at most. -/
theorem not_isError_feed (r : TagReader) (line : Text) :
    ∀ note ∈ (r.feed line).notes, note.isError = false := by
  unfold feed
  split
  · exact List.forall_mem_nil _
  · split
    · split
      · exact List.forall_mem_nil _
      · exact List.forall_mem_singleton.mpr rfl
      · exact List.forall_mem_nil _
    · exact List.forall_mem_singleton.mpr rfl

/-! ## Reading -/

/-- The records of a reader, the names of each in order. -/
def records (r : TagReader) : List Tag :=
  r.commits.map fun (revision, date, names) =>
    { date, revision, names := names.mergeSort Text.le }

/-- What a reader gives after further lines. -/
def readOn (r : TagReader) (lines : List Text) : Reading (List Tag) :=
  let fed := Fed.all feed r lines
  ⟨fed.state.tags, fed.notes, fed.failure?⟩

theorem isZoned_add {r : TagReader} (h : ∀ c ∈ r.commits, c.2.1.isZoned = true)
    {revision name : Text} {date : Moment} (hdate : date.isZoned = true) :
    ∀ c ∈ (r.add revision name date).commits, c.2.1.isZoned = true := by
  intro c hc
  unfold add at hc
  split at hc
  · rcases Assoc.mem_put hc with rfl | hc
    · exact hdate
    · exact h c hc
  · next latest _ hget =>
    rcases Assoc.mem_put hc with rfl | hc
    · dsimp only
      split
      · exact hdate
      · exact h _ (Assoc.mem_of_get? hget)
    · exact h c hc

theorem isZoned_commits (lines : List Text) :
    ∀ c ∈ (Fed.all feed {} lines).state.commits, c.2.1.isZoned = true := by
  refine Fed.all_invariant (P := fun r => ∀ c ∈ commits r, c.2.1.isZoned = true) ?_ (by simp) lines
  intro r line hr
  unfold feed
  split
  · exact hr
  · split
    · split
      · next hread => exact isZoned_add hr (isZoned_of_readDate hread)
      · exact hr
      · exact hr
    · exact hr

/-- The records that were read can be ordered. -/
theorem sort?_records (lines : List Text) :
    Tag.sort? (Fed.all feed {} lines).state.records = some (readOn {} lines).result := by
  refine Tag.sort?_of_isZoned fun tag htag => ?_
  obtain ⟨c, hc, rfl⟩ := List.mem_map.1 htag
  exact isZoned_commits lines c hc

/-! ## Dropping records -/

/-- A line with a date that no pattern reads leaves nothing but a warning: all else is read as if it was
not there. -/
theorem warnsOnceMore_readOn {before after : List Text} {line date t : Text}
    (hbefore : (readOn {} before).failure? = none) (hdate : date? line = some date)
    (hread : readDate datePatterns date = .error (.unparseable t)) :
    (readOn {} (before ++ line :: after)).WarnsOnceMore (readOn {} (before ++ after)) := by
  obtain ⟨object, peeled, name, hfields⟩ := date?_eq_some hdate
  have happend (rest : List Text) : readOn {} (before ++ rest) =
      (readOn (Fed.all feed {} before).state rest).after (Fed.all feed {} before).notes := by
    rw [readOn, Fed.all_append hbefore]
    rfl
  rw [happend, happend]
  generalize (Fed.all feed {} before).state = r
  obtain ⟨note, hlevel, hstep⟩ : ∃ note : Note, note.level = .warning ∧
      r.feed line = ⟨r, [note], none⟩ := by
    unfold feed
    rw [if_neg (ne_nil_of_date? hdate), hfields]
    dsimp only
    rw [hread]
    exact ⟨_, rfl, rfl⟩
  have hcons : readOn r (line :: after) = (readOn r after).after [note] := by
    simp [readOn, Fed.all, hstep, Reading.after]
  rw [hcons, Reading.after_after]
  exact Reading.warnsOnceMore_after hlevel rfl _ _

end Annals.Git.TagReader

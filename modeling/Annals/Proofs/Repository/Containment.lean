import Annals.BitKeeper.Annotate
import Annals.Proofs.BitKeeper.Tags
import Annals.Proofs.Git.Blame
import Annals.Proofs.Git.Tags
import Annals.Proofs.Repository.Logs

/-!
# Errors in the output of the tools

Whatever lines a tool prints, the readers of logs and tags fail in one way only, at a header whose date
leaves the years 1 to 9999 when it is converted to UTC; a record with a date that no pattern reads costs
a warning and no other record. The readers of annotations fail in no other way than that the output is
malformed, but for line numbers of too many digits (`contained_iff`).
-/

namespace Annals

theorem BitKeeper.AnnotationReader.isMalformed_failure?_feed {r : AnnotationReader} {line : Text}
    {f : Failure} (h : (r.feed line).failure? = some f) : f.IsMalformed := by
  unfold feed at h
  dsimp only at h
  split at h
  · exact nomatch h
  · exact ⟨_, (Option.some.inj h).symm⟩

namespace Backend

/-! ## Tags -/

/-- What a fresh reader makes of a list of tags. -/
def readTags : Backend → List Text → Reading (List Tag)
  | bitkeeper => BitKeeper.TagReader.readOn {}
  | git => Git.TagReader.readOn {}

/-- The records of tags that are read from lines, before they are put in order. -/
def tagRecords : Backend → List Text → List Tag
  | bitkeeper, lines => (Fed.all BitKeeper.TagReader.feed {} lines).state.close.records
  | git, lines => (Fed.all Git.TagReader.feed {} lines).state.records

/-- Whether a line begins a record of tags. In Git every line is a record of its own. -/
def beginsTagRecord : Backend → Text → Bool
  | bitkeeper, line => (BitKeeper.marked? 'D' line).isSome
  | git, _ => true

/-- The date of a line that begins a record of tags and has all its fields. -/
def tagDate? : Backend → Text → Option Text
  | bitkeeper => BitKeeper.TagReader.date?
  | git => Git.TagReader.date?

/-- Whether a line begins a record of tags whose date leaves the years 1 to 9999 when it is converted to
UTC. -/
def TagOverflows (b : Backend) (line : Text) : Prop :=
  ∃ date ∈ b.tagDate? line, readDate b.datePatterns date = .error .outOfRange

instance (b : Backend) (line : Text) : Decidable (b.TagOverflows line) :=
  inferInstanceAs (Decidable (∃ date ∈ b.tagDate? line, _))

theorem failure?_readTags (b : Backend) (lines : List Text) :
    (b.readTags lines).failure? =
      if ∃ line ∈ lines, b.TagOverflows line then some .dateOutOfRange else none := by
  cases b with
  | bitkeeper => exact Fed.failure?_all_of_iff BitKeeper.TagReader.failure?_feed {} lines
  | git => exact Fed.failure?_all_of_iff Git.TagReader.failure?_feed {} lines

theorem sort?_tagRecords (b : Backend) (lines : List Text) :
    Tag.sort? (b.tagRecords lines) = some (b.readTags lines).result := by
  cases b with
  | bitkeeper => exact BitKeeper.TagReader.sort?_close lines
  | git => exact Git.TagReader.sort?_records lines

/-! ## Annotations -/

/-- Why no annotation is read from lines, if none is. -/
def annotationFailure? : Backend → (filename : Text) → List Text → Option Failure
  | bitkeeper, filename, lines =>
    (Fed.all BitKeeper.AnnotationReader.feed { filename } lines).failure?
  | git, filename, lines => Git.BlameReader.failure? filename lines

/-- Whether lines are refused for a line number of too many digits. -/
def HasLongNumber : Backend → (filename : Text) → List Text → Nat → Prop
  | bitkeeper, _, _, _ => False
  | git, filename, lines, n => Git.BlameReader.HasLongNumber filename lines n

/-- Lines from which no annotation is read are malformed or have a line number of too many digits. -/
theorem isMalformed_or_hasLongNumber (b : Backend) {filename : Text} {lines : List Text} {f : Failure}
    (h : b.annotationFailure? filename lines = some f) :
    f.IsMalformed ∨ ∃ n, f = .tooManyDigits n ∧ b.HasLongNumber filename lines n := by
  cases b with
  | bitkeeper =>
    obtain ⟨before, line, after, -, -, hline⟩ := Fed.failure?_all_eq_some_iff.1 h
    exact Or.inl (BitKeeper.AnnotationReader.isMalformed_failure?_feed hline)
  | git => exact Git.BlameReader.isMalformed_or_hasLongNumber h

theorem annotationFailure?_eq_tooManyDigits_iff (b : Backend) {filename : Text} {lines : List Text}
    {n : Nat} :
    b.annotationFailure? filename lines = some (.tooManyDigits n) ↔ b.HasLongNumber filename lines n := by
  cases b with
  | bitkeeper =>
    refine ⟨fun h => ?_, False.elim⟩
    rcases isMalformed_or_hasLongNumber bitkeeper h with ⟨fault, hfault⟩ | ⟨m, hm, hlong⟩
    · exact nomatch hfault
    · exact hlong
  | git => exact Git.BlameReader.failure?_eq_tooManyDigits_iff

/-! ## Records with bad dates -/

/-- Whether lines are a record with a date that no pattern reads. -/
def IsBadRecord (b : Backend) (begins : Text → Bool) (date? : Text → Option Text)
    (block : List Text) : Prop :=
  ∃ line body date t, block = line :: body ∧ date? line = some date ∧
    readDate b.datePatterns date = .error (.unparseable t) ∧ ∀ line ∈ body, begins line = false

/-- Whether records with bad dates are read as a warning each, wherever they stand, and nothing else is
read otherwise for them. -/
def DropsBadRecords {α : Type} (b : Backend) (begins : Text → Bool) (date? : Text → Option Text)
    (read : List Text → Reading α) : Prop :=
  ∀ before block after, (read before).failure? = none → b.IsBadRecord begins date? block →
    (∀ line ∈ after.head?, begins line = true) →
      (read (before ++ block ++ after)).WarnsOnceMore (read (before ++ after))

theorem dropsBadRecords_readLog (b : Backend) (since? : Option Text) :
    b.DropsBadRecords b.logFormat.isHeader b.logDate? (b.logFormat.readLog since?) := by
  rintro before block after hbefore ⟨line, body, date, t, rfl, hdate, hread, hbody⟩ hafter
  obtain ⟨header, hh, hfield⟩ := Option.bind_eq_some_iff.1 hdate
  have hrefused : Opened.Refused b.datePatterns (b.dateField? header) := hfield ▸ .unreadable hread
  obtain ⟨note, ho⟩ := (b.opens_logFormat header).exists_eq_dropped_iff.2 hrefused
  exact HistoryReader.warnsOnceMore_readOn b.graded_logFormat rfl hbefore hh ho hbody hafter

theorem dropsBadRecords_readTags (b : Backend) :
    b.DropsBadRecords b.beginsTagRecord b.tagDate? b.readTags := by
  rintro before block after hbefore ⟨line, body, date, t, rfl, hdate, hread, hbody⟩ hafter
  cases b with
  | bitkeeper =>
    refine BitKeeper.TagReader.warnsOnceMore_readOn hbefore hdate hread ?_ ?_
    · exact fun line hline => Option.isNone_iff_eq_none.1
        (Option.isSome_eq_false_iff.1 (hbody line hline))
    · exact fun line hline => Option.isSome_iff_exists.1 (hafter line hline)
  | git =>
    obtain rfl : body = [] := List.eq_nil_iff_forall_not_mem.2 fun line hline =>
      Bool.noConfusion (hbody line hline)
    rw [List.append_assoc]
    exact Git.TagReader.warnsOnceMore_readOn hbefore hdate hread

/-! ## All readers -/

/-- Reading a log fails exactly at a header whose date leaves the years 1 to 9999 in UTC. -/
theorem failure?_readLog (b : Backend) (since? : Option Text) (lines : List Text) :
    (b.logFormat.readLog since? lines).failure? =
      if ∃ line ∈ lines, b.Overflows line then some .dateOutOfRange else none :=
  HistoryReader.failure?_readOn (fun header _ hf => ((b.opens_logFormat header).eq_failed_iff.1 hf).1)
    (fun _ => b.failsAt_logFormat) _ lines

/-- Whether the errors in lines are contained: from logs and tags something is read, the tags in order,
and no annotation is refused but as malformed. -/
structure Contained (b : Backend) (since? : Option Text) (filename : Text) (lines : List Text) :
    Prop where
  log : (b.logFormat.readLog since? lines).failure? = none
  tags : (b.readTags lines).failure? = none
  order : Tag.sort? (b.tagRecords lines) = some (b.readTags lines).result
  annotation : ∀ f, b.annotationFailure? filename lines = some f → f.IsMalformed

/-- Errors are contained unless a date overflows or a line number has too many digits. Records with other
bad dates are dropped with a warning, and all other records are kept. -/
theorem contained_iff (b : Backend) (since? : Option Text) (filename : Text) (lines : List Text) :
    (b.Contained since? filename lines ↔
      (∀ line ∈ lines, ¬b.Overflows line ∧ ¬b.TagOverflows line) ∧
        ∀ n, ¬b.HasLongNumber filename lines n) ∧
    b.DropsBadRecords b.logFormat.isHeader b.logDate? (b.logFormat.readLog since?) ∧
    b.DropsBadRecords b.beginsTagRecord b.tagDate? b.readTags := by
  refine ⟨⟨fun h => ⟨fun line hline => ⟨fun ho => ?_, fun ho => ?_⟩, fun n hn => ?_⟩, fun h => ?_⟩,
    b.dropsBadRecords_readLog since?, b.dropsBadRecords_readTags⟩
  · have hlog := h.log
    rw [failure?_readLog, if_pos ⟨line, hline, ho⟩] at hlog
    exact nomatch hlog
  · have htags := h.tags
    rw [failure?_readTags, if_pos ⟨line, hline, ho⟩] at htags
    exact nomatch htags
  · obtain ⟨fault, hfault⟩ := h.annotation _ (b.annotationFailure?_eq_tooManyDigits_iff.2 hn)
    exact nomatch hfault
  · obtain ⟨hlines, hnumbers⟩ := h
    refine ⟨?_, ?_, b.sort?_tagRecords lines, fun f hf => ?_⟩
    · rw [failure?_readLog, if_neg]
      exact fun ⟨line, hline, ho⟩ => (hlines line hline).1 ho
    · rw [failure?_readTags, if_neg]
      exact fun ⟨line, hline, ho⟩ => (hlines line hline).2 ho
    · refine (b.isMalformed_or_hasLongNumber hf).resolve_right ?_
      exact fun ⟨n, _, hn⟩ => hnumbers n hn

/-- In the first hour of year 1, a clock ahead of UTC shows a time that has no date in UTC. -/
theorem not_contained :
    ¬∀ (b : Backend) (since? : Option Text) (filename : Text) (lines : List Text),
      b.Contained since? filename lines := by
  intro h
  have hlog := (h .git none "f" ["\x1eaaaa\t0001-01-01T00:00:00+01:00\tA <a@x>".toList]).log
  revert hlog
  decide +kernel

end Backend

end Annals

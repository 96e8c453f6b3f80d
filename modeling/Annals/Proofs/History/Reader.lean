import Annals.History.Reader
import Annals.Proofs.History.Segments
import Annals.Proofs.Process.Feeding

/-!
# What is read of a log

`HistoryReader.readOn` is what a reader gives after further lines: the history, the notes and the
failure, if any. A pending record is an obstacle to reasoning about it, since it is closed by whatever
comes next; a reader without one takes a whole segment at a time (`readOn_segment`). What becomes of the
record of a segment is its `Fate`, and the history and the warnings of a log are those of the fates of
its segments (`grave_readLog`).
-/

namespace Annals

/-- What becomes of a record. -/
inductive Fate where
  /-- It becomes an entry. -/
  | entry (e : Entry)
  /-- It is dropped with a note. -/
  | warned (note : Note)
  /-- It is excluded by the bound that the caller gave. -/
  | excluded
  deriving DecidableEq

namespace Fate

/-- The entry that a record becomes. -/
def kept? : Fate → Option Entry
  | entry e => some e
  | _ => none

/-- The note with which a record is dropped. -/
def warning? : Fate → Option Note
  | warned note => some note
  | _ => none

@[simp] theorem kept?_entry (e : Entry) : (entry e).kept? = some e := rfl
@[simp] theorem kept?_warned (note : Note) : (warned note).kept? = none := rfl
@[simp] theorem kept?_excluded : excluded.kept? = none := rfl
@[simp] theorem warning?_entry (e : Entry) : (entry e).warning? = none := rfl
@[simp] theorem warning?_warned (note : Note) : (warned note).warning? = some note := rfl
@[simp] theorem warning?_excluded : excluded.warning? = none := rfl

end Fate

namespace HistoryFormat

variable {π : Type}

/-- Whether a line is a header line. -/
def isHeader (F : HistoryFormat π) (line : Text) : Bool := (F.header? line).isSome

/-- Whether reading fails at a line. -/
def failsAt (F : HistoryFormat π) (line : Text) : Prop :=
  ∃ header f, F.header? line = some header ∧ F.opens header = .failed f

/-- Whether a line is a header line whose record is dropped. -/
def dropsAt (F : HistoryFormat π) (line : Text) : Prop :=
  ∃ header note, F.header? line = some header ∧ F.opens header = .dropped note

/-- A segment of a log in a format. -/
abbrev Segment (F : HistoryFormat π) := Annals.Segment F.isHeader

/-- What becomes of a record with an entry, given the bound and the revisions that have an entry. -/
def fateOf (F : HistoryFormat π) (since? : Option Text) (seen : List Text) (e : Entry) : Fate :=
  if since?.any (F.excludes · e.revision) then .excluded
  else if seen.contains e.revision then .warned (F.duplicate e.revision)
  else .entry e

/-- What becomes of the record of a segment. Where reading fails, nothing becomes of it. -/
def fate (F : HistoryFormat π) (since? : Option Text) (seen : List Text) (seg : F.Segment) : Fate :=
  match (F.header? seg.header).map F.opens with
  | some (.record p) => F.fateOf since? seen (F.entry (seg.body.foldl F.extend p))
  | some (.dropped note) => .warned note
  | _ => .excluded

theorem fate_of_record {F : HistoryFormat π} {seg : F.Segment} {header : Text} {p : π}
    (hh : F.header? seg.header = some header) (ho : F.opens header = .record p)
    (since? : Option Text) (seen : List Text) :
    F.fate since? seen seg = F.fateOf since? seen (F.entry (seg.body.foldl F.extend p)) := by
  rw [fate, hh, Option.map_some, ho]

theorem fate_of_dropped {F : HistoryFormat π} {seg : F.Segment} {header : Text} {note : Note}
    (hh : F.header? seg.header = some header) (ho : F.opens header = .dropped note)
    (since? : Option Text) (seen : List Text) : F.fate since? seen seg = .warned note := by
  rw [fate, hh, Option.map_some, ho]

/-- What becomes of the records of segments, one after the other. -/
def fates (F : HistoryFormat π) (since? : Option Text) : List Text → List F.Segment → List Fate
  | _, [] => []
  | seen, seg :: segs =>
    let fate := F.fate since? seen seg
    fate :: fates F since? (seen ++ fate.kept?.toList.map (·.revision)) segs

/-- The levels of notes: dropped records are warned about, other lines are not. -/
structure Graded (F : HistoryFormat π) : Prop where
  remarks : ∀ line, ∀ note ∈ F.remarks line, note.level ≠ .warning
  dropped : ∀ header note, F.opens header = .dropped note → note.level = .warning
  duplicate : ∀ revision, (F.duplicate revision).level = .warning

end HistoryFormat

namespace HistoryReader

variable {π : Type} {F : HistoryFormat π} {r : HistoryReader π} {line : Text} {lines : List Text}

/-- What a reader gives after further lines. -/
def readOn (F : HistoryFormat π) (r : HistoryReader π) (lines : List Text) : Reading History :=
  let fed := Fed.all (feed F) r lines
  let (history, _, notes) := fed.state.history F
  ⟨history, fed.notes ++ notes, fed.failure?⟩

/-! ## Closing -/

theorem close_of_none (h : r.pending? = none) : r.close F = (r, []) := by
  rw [close, h]

theorem close_of_some {p : π} (h : r.pending? = some p) :
    r.close F =
      ({ r with
          pending? := none
          entries := r.entries ++ (F.fateOf r.since r.entries.revisions (F.entry p)).kept?.toList },
        (F.fateOf r.since r.entries.revisions (F.entry p)).warning?.toList) := by
  have hexcluded : ({ r with pending? := none } : HistoryReader π).isExcluded F (F.entry p).revision =
      r.since.any (F.excludes · (F.entry p).revision) := by
    unfold isExcluded
    cases r.since <;> rfl
  simp only [close, h, hexcluded, HistoryFormat.fateOf]
  split
  · simp
  · split
    · next hseen => simp [hseen]
    · next hnew => simp [hnew]

theorem pending?_close : (r.close F).1.pending? = none := by
  cases h : r.pending? with
  | none => rw [close_of_none h, h]
  | some p => rw [close_of_some h]

theorem asked_close : (r.close F).1.asked = r.asked := by
  cases h : r.pending? with
  | none => rw [close_of_none h]
  | some p => rw [close_of_some h]

/-! ## Reading on -/

theorem readOn_nil (h : r.asked = false) :
    readOn F r [] = ⟨(r.close F).1.entries, (r.close F).2, none⟩ := by
  simp [readOn, Fed.all, history, h]

theorem readOn_plain (h : F.isHeader line = false) :
    readOn F r (line :: lines) =
      (readOn F { r with pending? := r.pending?.map (F.extend · line) } lines).after
        (F.remarks line) := by
  have hnone : F.header? line = none := by simpa [HistoryFormat.isHeader] using h
  simp [readOn, Fed.all, feed, hnone, Reading.after]

theorem readOn_record {header : Text} {p : π} (hh : F.header? line = some header)
    (ho : F.opens header = .record p) :
    readOn F r (line :: lines) =
      (readOn F { (r.close F).1 with pending? := some p } lines).after (r.close F).2 := by
  simp [readOn, Fed.all, feed, hh, ho, Reading.after]

theorem readOn_dropped {header : Text} {note : Note} (hh : F.header? line = some header)
    (ho : F.opens header = .dropped note) :
    readOn F r (line :: lines) = (readOn F (r.close F).1 lines).after ((r.close F).2 ++ [note]) := by
  simp [readOn, Fed.all, feed, hh, ho, Reading.after]

/-- Lines up to the next header belong to the pending record. -/
theorem readOn_body {body : List Text} (h : ∀ line ∈ body, F.isHeader line = false)
    (rest : List Text) :
    readOn F r (body ++ rest) =
      (readOn F { r with pending? := r.pending?.map (body.foldl F.extend) } rest).after
        (body.flatMap F.remarks) := by
  induction body generalizing r with
  | nil => simp
  | cons line body ih =>
    obtain ⟨hline, hbody⟩ := List.forall_mem_cons.1 h
    rw [List.cons_append, readOn_plain hline, ih hbody, Reading.after_after, List.flatMap_cons,
      Option.map_map]
    rfl

/-- At the end and before a header, a pending record may as well be closed at once. -/
theorem readOn_close (ha : r.asked = false) (hl : ∀ line ∈ lines.head?, F.isHeader line = true) :
    readOn F r lines = (readOn F (r.close F).1 lines).after (r.close F).2 := by
  have hclosed : (r.close F).1.close F = ((r.close F).1, []) := close_of_none pending?_close
  cases lines with
  | nil =>
    rw [readOn_nil ha, readOn_nil (asked_close.trans ha), hclosed]
    simp [Reading.after]
  | cons line lines =>
    obtain ⟨header, hh⟩ := Option.isSome_iff_exists.1 (hl line rfl)
    cases ho : F.opens header with
    | record p => rw [readOn_record hh ho, readOn_record hh ho, hclosed, Reading.after_nil]
    | dropped note =>
      rw [readOn_dropped hh ho, readOn_dropped hh ho, hclosed, Reading.after_after,
        List.nil_append]
    | failed f => simp [readOn, Fed.all, feed, hh, ho, Reading.after, hclosed, history]

/-! ## Failing -/

theorem failure?_feed (F : HistoryFormat π) (r : HistoryReader π) (line : Text) :
    (feed F r line).failure? =
      (F.header? line).bind fun header =>
        match F.opens header with
        | .failed f => some f
        | _ => none := by
  unfold feed
  cases F.header? line with
  | none => rfl
  | some header =>
    simp only [Option.bind_some]
    cases F.opens header <;> rfl

/-- If there is one way to fail, reading fails in it if a line is there at which it does. -/
theorem failure?_readOn {f : Failure} {P : Text → Prop} [DecidablePred P]
    (hf : ∀ header f', F.opens header = .failed f' → f' = f) (hP : ∀ line, F.failsAt line ↔ P line)
    (r : HistoryReader π) (lines : List Text) :
    (readOn F r lines).failure? = if ∃ line ∈ lines, P line then some f else none := by
  refine Fed.failure?_all_of_iff (fun r line => ?_) r lines
  have hline := hP line
  rw [failure?_feed]
  cases hh : F.header? line with
  | none =>
    have hnot : ¬P line := by simp [← hline, HistoryFormat.failsAt, hh]
    rw [if_neg hnot, Option.bind_none]
  | some header =>
    rw [Option.bind_some]
    cases ho : F.opens header with
    | failed f' =>
      rw [if_pos (hline.1 ⟨header, f', hh, ho⟩), ← hf header f' ho]
    | record p =>
      have hnot : ¬P line := by simp [← hline, HistoryFormat.failsAt, hh, ho]
      rw [if_neg hnot]
    | dropped note =>
      have hnot : ¬P line := by simp [← hline, HistoryFormat.failsAt, hh, ho]
      rw [if_neg hnot]

theorem asked_feed (F : HistoryFormat π) (r : HistoryReader π) (line : Text) :
    (feed F r line).state.asked = r.asked := by
  unfold feed
  cases F.header? line with
  | none => rfl
  | some header =>
    dsimp only
    cases F.opens header <;> exact asked_close

/-! ## Dropping records -/

/-- A record whose header cannot be read leaves nothing but a warning: all else is read as if it was not
there. -/
theorem warnsOnceMore_readOn (hF : F.Graded) (ha : r.asked = false) {before body after : List Text}
    {header : Text} {note : Note} (hbefore : (readOn F r before).failure? = none)
    (hh : F.header? line = some header) (ho : F.opens header = .dropped note)
    (hbody : ∀ line ∈ body, F.isHeader line = false)
    (hafter : ∀ line ∈ after.head?, F.isHeader line = true) :
    (readOn F r (before ++ line :: body ++ after)).WarnsOnceMore (readOn F r (before ++ after)) := by
  have happend (rest : List Text) : readOn F r (before ++ rest) =
      (readOn F (Fed.all (feed F) r before).state rest).after (Fed.all (feed F) r before).notes := by
    rw [readOn, Fed.all_append hbefore]
    simp [readOn, Reading.after]
  have hasked : (Fed.all (feed F) r before).state.asked = false :=
    Fed.all_invariant (P := fun r => r.asked = false)
      (fun r line hr => (asked_feed F r line).trans hr) ha before
  rw [List.append_assoc, happend, happend]
  -- from here on, what was read before does not matter
  generalize (Fed.all (feed F) r before).state = r' at *
  have hclosed : readOn F (r'.close F).1 (body ++ after) =
      (readOn F (r'.close F).1 after).after (body.flatMap F.remarks) := by
    have hplain := readOn_body (r := (r'.close F).1) hbody after
    rwa [pending?_close, Option.map_none, ← pending?_close (F := F) (r := r')] at hplain
  rw [List.cons_append, readOn_dropped hh ho, hclosed, readOn_close hasked hafter, Reading.after_after,
    Reading.after_after, Reading.after_after, ← List.append_assoc,
    ← List.append_cons]
  exact Reading.warnsOnceMore_after (hF.dropped header note ho)
    (Reading.filter_flatMap_eq_nil hF.remarks body) _ _

/-! ## Reading segments -/

theorem head?_flatMap_lines {segs : List F.Segment} :
    ∀ line ∈ (segs.flatMap Segment.lines).head?, F.isHeader line = true := by
  intro line hline
  cases segs with
  | nil => exact absurd hline (by simp)
  | cons seg segs =>
    obtain rfl : seg.header = line := by simpa [Segment.lines] using hline
    exact seg.isHeader_header

theorem level_warning?_fate (hF : F.Graded) {since? : Option Text} {seen : List Text}
    {seg : F.Segment} : ∀ note ∈ (F.fate since? seen seg).warning?, note.level = .warning := by
  intro note hnote
  obtain ⟨header, hh⟩ := Option.isSome_iff_exists.1 seg.isHeader_header
  cases ho : F.opens header with
  | record p =>
    rw [HistoryFormat.fate_of_record hh ho, HistoryFormat.fateOf] at hnote
    split at hnote
    · exact absurd hnote (by simp)
    · split at hnote
      · obtain rfl := Option.some.inj hnote
        exact hF.duplicate _
      · exact absurd hnote (by simp)
  | dropped n =>
    rw [HistoryFormat.fate_of_dropped hh ho] at hnote
    obtain rfl := Option.some.inj hnote
    exact hF.dropped header n ho
  | failed f =>
    rw [HistoryFormat.fate, hh, Option.map_some, ho] at hnote
    exact absurd hnote (by simp)

theorem filter_warning?_fate (hF : F.Graded) (since? : Option Text) (seen : List Text)
    (seg : F.Segment) :
    (F.fate since? seen seg).warning?.toList.filter (·.level = .warning) =
      (F.fate since? seen seg).warning?.toList := by
  rw [List.filter_eq_self]
  intro note hnote
  simpa using level_warning?_fate hF note (Option.mem_toList.1 hnote)

/-- A reader without a pending record takes a whole segment, and no trace is left of it but its entry or
the warning about it. -/
theorem readOn_segment (hF : F.Graded) {seg : F.Segment} {segs : List F.Segment}
    (hp : r.pending? = none) (ha : r.asked = false) (hok : ¬F.failsAt seg.header) :
    (readOn F r (seg.lines ++ segs.flatMap Segment.lines)).grave =
      (readOn F { r with
          entries := r.entries ++ (F.fate r.since r.entries.revisions seg).kept?.toList }
        (segs.flatMap Segment.lines)).grave.after
          (F.fate r.since r.entries.revisions seg).warning?.toList := by
  obtain ⟨header, hh⟩ := Option.isSome_iff_exists.1 seg.isHeader_header
  have hquiet := Reading.filter_flatMap_eq_nil hF.remarks seg.body
  have hwarning := filter_warning?_fate hF r.since r.entries.revisions seg
  rw [Segment.lines, List.cons_append]
  cases ho : F.opens header with
  | record p =>
    rw [HistoryFormat.fate_of_record hh ho] at hwarning ⊢
    -- the body goes to the record, which the next header or the end closes
    have hbody : readOn F { r with pending? := some p } (seg.body ++ segs.flatMap Segment.lines) = _ :=
      readOn_body seg.body_plain _
    have hclose : readOn F { r with pending? := some (seg.body.foldl F.extend p) }
        (segs.flatMap Segment.lines) = _ := readOn_close ha head?_flatMap_lines
    rw [close_of_some rfl] at hclose
    rw [readOn_record hh ho, close_of_none hp, Reading.after_nil, hbody, Option.map_some, hclose,
      Reading.after_after, Reading.grave_after, List.filter_append, hquiet, List.nil_append,
      hwarning, hp]
  | dropped note =>
    rw [HistoryFormat.fate_of_dropped hh ho] at hwarning ⊢
    rw [readOn_dropped hh ho, close_of_none hp, readOn_body seg.body_plain, Reading.after_after,
      Reading.grave_after, List.filter_append, hquiet, List.append_nil, List.nil_append]
    simp only [Fate.warning?_warned, Option.toList_some] at hwarning
    rw [hwarning]
    simp [hp]
  | failed f => exact absurd ⟨header, f, hh, ho⟩ hok

theorem readOn_segments (hF : F.Graded) {segs : List F.Segment} (hp : r.pending? = none)
    (ha : r.asked = false) (hok : ∀ seg ∈ segs, ¬F.failsAt seg.header) :
    (readOn F r (segs.flatMap Segment.lines)).grave =
      ⟨r.entries ++ (F.fates r.since r.entries.revisions segs).filterMap Fate.kept?,
        (F.fates r.since r.entries.revisions segs).filterMap Fate.warning?, none⟩ := by
  induction segs generalizing r with
  | nil =>
    rw [List.flatMap_nil, readOn_nil ha, close_of_none hp]
    simp [HistoryFormat.fates, Reading.grave, Reading.warnings]
  | cons seg segs ih =>
    obtain ⟨hseg, hsegs⟩ := List.forall_mem_cons.1 hok
    have hrest := ih (r := { r with
      entries := r.entries ++ (F.fate r.since r.entries.revisions seg).kept?.toList }) hp ha hsegs
    rw [List.flatMap_cons, readOn_segment hF hp ha hseg, hrest]
    simp only [HistoryFormat.fates, History.revisions, List.map_append, Reading.after,
      List.filterMap_cons]
    cases F.fate r.since (r.entries.map (·.revision)) seg <;> simp

end HistoryReader

end Annals

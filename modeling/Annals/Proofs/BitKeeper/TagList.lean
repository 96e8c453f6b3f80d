import Annals.Proofs.BitKeeper.Tags
import Annals.Proofs.History.Segments
import Annals.Proofs.History.TagOrder
import Annals.Proofs.Text.Fields

/-!
# The tags of records

A record is a header that can be read, with the names on the lines up to the next header; it is listed if
it has names (`IsHeld`). What a reader has, with the pending record closed, is what the segments hold that
it was fed (`mem_close_segments`): closing a record changes nothing but that no name is added to it any
more. So the list that is read is that of the records in their order (`tags_of_records`), in whatever order
they come, however often, and whatever else comes between them.
-/

namespace Annals.BitKeeper.TagReader

/-! ## Lines -/

/-- Whether a line is a header. -/
def isHeader (line : Text) : Bool := (marked? 'D' line).isSome

/-- The name on a line, if it is not empty. -/
def name? (line : Text) : Option Text := (marked? 'T' line).filter (· ≠ [])

/-- Whether a line is a header that gives a revision and a date. -/
def Opens (line revision : Text) (date : Moment) : Prop :=
  ∃ (text : Text) (more : List Text), (∀ field ∈ revision :: text :: more, '\t' ∉ field) ∧
    line = 'D' :: ' ' :: Text.join ['\t'] (revision :: text :: more) ∧
    readDate [datePattern] text = .ok date

variable {r : TagReader} {line : Text} {lines body : List Text} {tag : Tag} {seg : Segment isHeader}

theorem isHeader_iff : isHeader line = true ↔ line = ['D'] ∨ ∃ rest, line = 'D' :: ' ' :: rest :=
  isHeader_logFormat

theorem isHeader_eq_false : isHeader line = false ↔ marked? 'D' line = none := by
  rw [isHeader, Option.isSome_eq_false_iff, Option.isNone_iff_eq_none]

theorem name?_eq_some_iff {name : Text} :
    name? line = some name ↔ line = 'T' :: ' ' :: name ∧ name ≠ [] := by
  rw [name?, Option.filter_eq_some_iff, marked?_eq_some_iff, decide_eq_true_iff]
  constructor
  · rintro ⟨hline | ⟨-, hempty⟩, hne⟩
    · exact ⟨hline, hne⟩
    · exact absurd hempty hne
  · rintro ⟨hline, hne⟩
    exact ⟨.inl hline, hne⟩

theorem openRecord_eq_record_iff {header : Text} : openRecord header = .record tag ↔
    ∃ text more, Text.fields '\t' header = tag.revision :: text :: more ∧
      readDate [datePattern] text = .ok tag.date ∧ tag.names = [] := by
  obtain ⟨date, revision, names⟩ := tag
  unfold openRecord
  rcases Text.fields '\t' header with _ | ⟨first, _ | ⟨text, more⟩⟩
  · simp
  · simp
  · cases hread : readDate [datePattern] text with
    | ok m =>
      simp only [hread]
      constructor
      · intro hrecord
        cases hrecord
        exact ⟨text, more, rfl, hread, rfl⟩
      · rintro ⟨_, _, hfields, hdate, rfl⟩
        cases hfields
        cases hread.symm.trans hdate
        rfl
    | error fault => cases fault <;> simp [hread]

/-- The record that a line opens, without its names. -/
def opened? (line : Text) : Option Tag :=
  (marked? 'D' line).bind fun header =>
    match openRecord header with
    | .record tag => some tag
    | _ => none

theorem opened?_eq_some_iff : opened? line = some tag ↔
    Opens line tag.revision tag.date ∧ tag.names = [] := by
  have hopened (header : Text) : (match openRecord header with
      | .record tag => some tag
      | _ => none) = some tag ↔ openRecord header = .record tag := by
    cases openRecord header <;> simp
  simp only [opened?, Option.bind_eq_some_iff, hopened, openRecord_eq_record_iff]
  constructor
  · rintro ⟨header, hmarked, text, more, hfields, hread, hnames⟩
    have hjoin := Text.join_fields '\t' header
    have hsolid : ∀ field ∈ Text.fields '\t' header, '\t' ∉ field := fun _ =>
      Text.sep_notMem_of_mem_fields
    rw [hfields] at hjoin hsolid
    have hline : line = 'D' :: ' ' :: header := by
      refine (marked?_eq_some_iff.1 hmarked).resolve_right ?_
      rintro ⟨-, rfl⟩
      simp [Text.fields] at hfields
    exact ⟨⟨text, more, hsolid, hjoin ▸ hline, hread⟩, hnames⟩
  · rintro ⟨⟨text, more, hsolid, rfl, hread⟩, hnames⟩
    exact ⟨_, marked?_eq_some_iff.2 (.inl rfl), text, more,
      Text.fields_join (List.cons_ne_nil _ _) hsolid, hread, hnames⟩

/-! ## Records -/

/-- The record of a segment, if its header can be read. -/
def record? (seg : Segment isHeader) : Option Tag :=
  (opened? seg.header).map fun tag => { tag with names := seg.body.filterMap name? }

/-- Whether a segment is a record that is listed as a tag. -/
def Holds (seg : Segment isHeader) (tag : Tag) : Prop :=
  Opens seg.header tag.revision tag.date ∧ tag.names = seg.body.filterMap name? ∧ tag.names ≠ []

theorem holds_iff : Holds seg tag ↔ record? seg = some tag ∧ tag.names ≠ [] := by
  unfold Holds record?
  rw [← and_assoc, and_congr_left_iff]
  intro _
  rw [Option.map_eq_some_iff]
  constructor
  · rintro ⟨hopens, hnames⟩
    refine ⟨{ tag with names := [] }, opened?_eq_some_iff.2 ⟨hopens, rfl⟩, ?_⟩
    rw [← hnames]
  · rintro ⟨opened, hopened, rfl⟩
    exact ⟨(opened?_eq_some_iff.1 hopened).1, rfl⟩

theorem toUtc?_of_holds (h : Holds seg tag) : tag.date.toUtc? = some tag.date := by
  obtain ⟨⟨_, _, _, _, hread⟩, -⟩ := h
  exact toUtc?_of_readDate hread

/-- Whether lines hold a record with names: a header, and the names on the lines up to the next one. -/
def IsHeld (lines : List Text) (tag : Tag) : Prop :=
  ∃ (before : List Text) (header : Text) (body after : List Text),
    lines = before ++ header :: (body ++ after) ∧ Opens header tag.revision tag.date ∧
    (∀ line ∈ body, isHeader line = false) ∧ (∀ line ∈ after.head?, isHeader line = true) ∧
    tag.names = body.filterMap name? ∧ tag.names ≠ []

theorem isHeader_of_opens {revision : Text} {date : Moment} (h : Opens line revision date) :
    isHeader line = true := by
  obtain ⟨text, more, -, rfl, -⟩ := h
  rfl

theorem isHeld_iff : IsHeld lines tag ↔ ∃ seg ∈ (Cut.ofLines lines : Cut isHeader).segments,
    Holds seg tag := by
  constructor
  · rintro ⟨before, header, body, after, hlines, hopens, hbody, hafter, hnames⟩
    exact ⟨⟨header, body, isHeader_of_opens hopens, hbody⟩,
      Cut.mem_segments_ofLines.2 ⟨before, after, hlines, hafter⟩, hopens, hnames⟩
  · rintro ⟨seg, hseg, hopens, hnames⟩
    obtain ⟨before, after, hlines, hafter⟩ := Cut.mem_segments_ofLines.1 hseg
    exact ⟨before, seg.header, seg.body, after, hlines, hopens, seg.body_plain, hafter, hnames⟩

/-! ## Reading a segment -/

theorem failure?_feed_eq_none (r : TagReader) (hdate : ¬Overflows line) :
    (r.feed line).failure? = none := by
  rw [failure?_feed, if_neg hdate]

theorem feed_plain (r : TagReader) (h : isHeader line = false) :
    r.feed line =
      ⟨{ r with pending? := r.pending?.map fun tag =>
          { tag with names := tag.names ++ (name? line).toList } }, remarks line, none⟩ := by
  simp only [feed, isHeader_eq_false.1 h, remarks, name?]
  cases hmarked : marked? 'T' line with
  | none => simp
  | some name =>
    simp only [TagReader.name, List.isEmpty_iff]
    by_cases hempty : name = []
    · simp [hempty, Option.filter]
    · simp [hempty, Option.filter]

/-- The lines of a body add their names to the pending record, if there is one. -/
theorem all_body (r : TagReader) (h : ∀ line ∈ body, isHeader line = false) :
    Fed.all feed r body =
      ⟨{ r with pending? := r.pending?.map fun tag =>
          { tag with names := tag.names ++ body.filterMap name? } }, body.flatMap remarks, none⟩ := by
  induction body generalizing r with
  | nil => simp [Fed.all]
  | cons line body ih =>
    obtain ⟨hline, hbody⟩ := List.forall_mem_cons.1 h
    simp only [Fed.all, feed_plain r hline, ih _ hbody, Option.map_map, List.flatMap_cons]
    congr 3
    funext tag
    rw [List.filterMap_cons]
    cases name? line <;> simp

/-- A segment closes the record before it and leaves its own pending. -/
theorem all_segment (r : TagReader) (hdate : ¬Overflows seg.header) :
    (Fed.all feed r seg.lines).failure? = none ∧
      (Fed.all feed r seg.lines).state = { r.close with pending? := record? seg } := by
  obtain ⟨header, hmarked⟩ := Option.isSome_iff_exists.1 seg.isHeader_header
  have hstate : (r.feed seg.header).state = { r.close with pending? := opened? seg.header } := by
    simp only [feed, opened?, hmarked, Option.bind_some]
    cases openRecord header with
    | record tag => rfl
    | dropped note => simp [← pending?_close r]
    | failed f => simp [← pending?_close r]
  simp only [Segment.lines, Fed.all, failure?_feed_eq_none r hdate, all_body _ seg.body_plain, hstate,
    true_and]
  congr 1
  unfold record?
  cases hopened : opened? seg.header with
  | none => rfl
  | some tag => simp [(opened?_eq_some_iff.1 hopened).2]

/-! ## What a reader has -/

/-- Closing adds the pending record, if it has names. -/
theorem mem_close : tag ∈ r.close.records ↔
    tag ∈ r.records ∨ r.pending? = some tag ∧ tag.names ≠ [] := by
  unfold close
  cases hpending : r.pending? with
  | none => simp
  | some pending =>
    dsimp only
    rw [Option.some_inj]
    split
    · next hdropped =>
      rw [iff_self_or]
      rintro ⟨rfl, hnames⟩
      exact hdropped.resolve_left hnames
    · next hkept =>
      rw [List.mem_append, List.mem_singleton]
      refine or_congr_right ⟨?_, fun h => h.1.symm⟩
      rintro rfl
      exact ⟨rfl, fun hnames => hkept (.inl hnames)⟩

theorem nodup_close (h : r.records.Nodup) : r.close.records.Nodup := by
  unfold close
  split
  · exact h
  · next pending _ =>
    split
    · exact h
    · next hkept =>
      refine h.append (List.nodup_singleton _) ?_
      rw [List.disjoint_singleton]
      exact fun hmem => hkept (.inr hmem)

/-- After some segments a reader has what it had and what they hold. -/
theorem mem_close_segments {segs : List (Segment isHeader)} (r : TagReader)
    (hdates : ∀ seg ∈ segs, ¬Overflows seg.header) (hnodup : r.records.Nodup) :
    let r' := (Fed.all feed r (segs.flatMap Segment.lines)).state
    r'.records.Nodup ∧ ∀ tag, tag ∈ r'.close.records ↔
      tag ∈ r.close.records ∨ ∃ seg ∈ segs, Holds seg tag := by
  induction segs generalizing r with
  | nil => simpa [Fed.all] using hnodup
  | cons seg segs ih =>
    obtain ⟨hseg, hsegs⟩ := List.forall_mem_cons.1 hdates
    obtain ⟨hnone, hstate⟩ := all_segment r hseg
    rw [List.flatMap_cons, Fed.all_append hnone, hstate]
    obtain ⟨hrest, hmem⟩ := ih { r.close with pending? := record? seg } hsegs (nodup_close hnodup)
    refine ⟨hrest, fun tag => (hmem tag).trans ?_⟩
    rw [mem_close, ← holds_iff, or_assoc, List.exists_mem_cons_iff]

/-- A reader that was fed lines has the records that they hold, each once. -/
theorem records_readOn (hdates : ∀ line ∈ lines, ¬Overflows line) :
    let r := (Fed.all feed {} lines).state
    r.close.records.Nodup ∧ ∀ tag, tag ∈ r.close.records ↔ IsHeld lines tag := by
  have hlines : (Cut.ofLines lines : Cut isHeader).lines = lines := Cut.lines_ofLines lines
  simp only [isHeld_iff]
  generalize (Cut.ofLines lines : Cut isHeader) = c at hlines
  subst hlines
  have hsegs : ∀ seg ∈ c.segments, ¬Overflows seg.header := by
    intro seg hseg
    refine hdates _ (List.mem_append_right _ (List.mem_flatMap.2 ⟨seg, hseg, ?_⟩))
    exact List.mem_cons_self
  -- there is no record before the first header, to which a name could be added
  have hbefore := all_body {} c.before_plain
  have hnone : (Fed.all feed {} c.before).failure? = none := by rw [hbefore]
  rw [Cut.lines, Fed.all_append hnone, hbefore]
  obtain ⟨hnodup, hmem⟩ := mem_close_segments {} hsegs List.nodup_nil
  refine ⟨nodup_close hnodup, fun tag => (hmem tag).trans ?_⟩
  exact or_iff_right (by simp [close])

theorem mem_readOn (hdates : ∀ line ∈ lines, ¬Overflows line) :
    tag ∈ (readOn {} lines).result ↔ IsHeld lines tag :=
  Tag.mem_sort.trans ((records_readOn hdates).2 tag)

theorem pairwise_readOn (hdates : ∀ line ∈ lines, ¬Overflows line) :
    (readOn {} lines).result.Pairwise Tag.Before := by
  obtain ⟨hnodup, hmem⟩ := records_readOn hdates
  refine Tag.pairwise_before_sort hnodup fun tag htag => ?_
  obtain ⟨seg, -, hholds⟩ := isHeld_iff.1 ((hmem tag).1 htag)
  exact toUtc?_of_holds hholds

/-- The list says nothing of lines but which records they hold. -/
theorem readOn_eq_of_isHeld {lines' : List Text} (hdates : ∀ line ∈ lines, ¬Overflows line)
    (hdates' : ∀ line ∈ lines', ¬Overflows line) (h : ∀ tag, IsHeld lines' tag ↔ IsHeld lines tag) :
    (readOn {} lines').result = (readOn {} lines).result := by
  refine Tag.eq_of_pairwise_before (pairwise_readOn hdates') (pairwise_readOn hdates) fun tag => ?_
  rw [mem_readOn hdates', mem_readOn hdates, h]

/-! ## What does not matter -/

/-- Records may come in any order and any number of times, and between lines that hold no record. -/
theorem readOn_lines {c c' : Cut isHeader} (hdates : ∀ line ∈ c.lines, ¬Overflows line)
    (hdates' : ∀ line ∈ c'.lines, ¬Overflows line)
    (h : ∀ seg, (∃ tag, Holds seg tag) → (seg ∈ c'.segments ↔ seg ∈ c.segments)) :
    (readOn {} c'.lines).result = (readOn {} c.lines).result := by
  refine readOn_eq_of_isHeld hdates hdates' fun tag => ?_
  simp only [isHeld_iff, Cut.ofLines_lines]
  refine exists_congr fun seg => ?_
  rw [and_congr_left_iff]
  exact fun hholds => h seg ⟨tag, hholds⟩

/-- Whether a line is a header or has a name. -/
def IsMarked (line : Text) : Prop := isHeader line = true ∨ (name? line).isSome = true

instance (line : Text) : Decidable (IsMarked line) := inferInstanceAs (Decidable (_ ∨ _))

/-- Other lines change nothing. -/
theorem state_filter (hdates : ∀ line ∈ lines, ¬Overflows line) (r : TagReader) :
    (Fed.all feed r (lines.filter (IsMarked ·))).state = (Fed.all feed r lines).state := by
  induction lines generalizing r with
  | nil => rfl
  | cons line lines ih =>
    obtain ⟨hline, hlines⟩ := List.forall_mem_cons.1 hdates
    rw [List.filter_cons]
    by_cases hmarked : IsMarked line
    · rw [if_pos (decide_eq_true hmarked)]
      simp only [Fed.all, failure?_feed_eq_none r hline]
      exact ih hlines _
    · obtain ⟨hplain, hname⟩ := not_or.1 hmarked
      have hfeed := feed_plain r (eq_false_of_ne_true hplain)
      rw [Option.not_isSome_iff_eq_none.1 hname] at hfeed
      rw [if_neg (by simpa using hmarked), ih hlines]
      simp [Fed.all, hfeed]

theorem isHeader_of_overflows (h : Overflows line) : isHeader line = true := by
  obtain ⟨date, hdate, -⟩ := h
  obtain ⟨header, hmarked, -⟩ := Option.bind_eq_some_iff.1 hdate
  rw [isHeader, hmarked, Option.isSome_some]

theorem readOn_of_filter_eq {lines' : List Text} (hdates : ∀ line ∈ lines, ¬Overflows line)
    (h : lines'.filter (IsMarked ·) = lines.filter (IsMarked ·)) :
    (readOn {} lines').result = (readOn {} lines).result := by
  have hdates' : ∀ line ∈ lines', ¬Overflows line := by
    intro line hline hoverflows
    have hmarked : line ∈ lines'.filter (IsMarked ·) :=
      List.mem_filter.2 ⟨hline, decide_eq_true (.inl (isHeader_of_overflows hoverflows))⟩
    rw [h] at hmarked
    exact hdates line (List.mem_filter.1 hmarked).1 hoverflows
  have hstate := state_filter hdates' {}
  rw [h, state_filter hdates] at hstate
  simp only [readOn, hstate]

/-! ## The list -/

/-- From lines whose dates are in range, the records that they hold are read, each strictly before the
next. It does not matter in which order and how often they come, which segments that hold none and which
lines before the first header come with them, and which lines that are neither headers nor names are
between the others. Asking again gives the same. -/
theorem tags_of_records (lines : List Text) (hdates : ∀ line ∈ lines, ¬Overflows line) :
    (readOn {} lines).failure? = none ∧
    (∀ line, isHeader line = true ↔ line = ['D'] ∨ ∃ rest, line = 'D' :: ' ' :: rest) ∧
    (∀ line name, name? line = some name ↔ line = 'T' :: ' ' :: name ∧ name ≠ []) ∧
    (readOn {} lines).result.Pairwise Tag.Before ∧
    (∀ tag, tag ∈ (readOn {} lines).result ↔ IsHeld lines tag) ∧
    (∀ c c' : Cut isHeader, c.lines = lines → (∀ line ∈ c'.lines, ¬Overflows line) →
      (∀ seg, (∃ tag, Holds seg tag) → (seg ∈ c'.segments ↔ seg ∈ c.segments)) →
        (readOn {} c'.lines).result = (readOn {} lines).result) ∧
    (∀ lines' : List Text, lines'.filter (IsMarked ·) = lines.filter (IsMarked ·) →
      (readOn {} lines').result = (readOn {} lines).result) ∧
    let r := (Fed.all feed {} lines).state
    r.tags.2.tags = r.tags := by
  refine ⟨Fed.failure?_all_eq_none failure?_feed {} hdates, fun _ => isHeader_iff,
    fun _ _ => name?_eq_some_iff, pairwise_readOn hdates, fun _ => mem_readOn hdates, ?_,
    fun _ => readOn_of_filter_eq hdates, ?_⟩
  · rintro c c' rfl hdates' hsegs
    exact readOn_lines hdates hdates' hsegs
  · simp only [tags, close_close]

/-- A record between a name before any header and one behind a header that is dropped. -/
theorem tags_of_records_of_dropped_header :
    let lines : List Text := ["T early", "D 1.2\t2017-03-01 01:00:00 GMT+01:00", "T v2", "T ", "T v1",
      "D 1.3\tsome day", "T hidden"]
    let tag : Tag := ⟨.utc ⟨2017, 3, 1, 0, 0, 0, 0⟩, "1.2", ["v2", "v1"]⟩
    (∀ line ∈ lines, ¬Overflows line) ∧ tag ∈ (readOn {} lines).result ∧
      (readOn {} ("P noise" :: lines)).result = (readOn {} lines).result := by
  intro lines tag
  have hdates : ∀ line ∈ lines, ¬Overflows line := by decide +kernel
  have hheld : IsHeld lines tag :=
    ⟨["T early"], "D 1.2\t2017-03-01 01:00:00 GMT+01:00", ["T v2", "T ", "T v1"],
      ["D 1.3\tsome day", "T hidden"], rfl,
      ⟨"2017-03-01 01:00:00 GMT+01:00", [], by decide, rfl, by decide +kernel⟩,
      by decide, by decide, by decide, by decide⟩
  obtain ⟨-, -, -, -, hmem, -, hfilter, -⟩ := tags_of_records lines hdates
  exact ⟨hdates, (hmem tag).2 hheld, hfilter _ (by decide +kernel)⟩

end Annals.BitKeeper.TagReader

import Annals.Text.Basic

/-!
# Segments

The lines of a log fall into the lines before the first header and, for each header, a segment: the
header line and the lines up to the next one. A `Cut` carries this division with the proof that the
headers are exactly the header lines, so there is one cut of any list of lines (`Cut.lines_ofLines`,
`Cut.ofLines_lines`).
-/

namespace Annals

variable {isHeader : Text → Bool}

/-- A header line and lines after it that are no headers. -/
structure Segment (isHeader : Text → Bool) where
  header : Text
  body : List Text
  isHeader_header : isHeader header = true
  body_plain : ∀ line ∈ body, isHeader line = false

/-- Lines divided at the header lines. -/
structure Cut (isHeader : Text → Bool) where
  before : List Text
  segments : List (Segment isHeader)
  before_plain : ∀ line ∈ before, isHeader line = false

/-- The lines of a segment. -/
def Segment.lines (seg : Segment isHeader) : List Text := seg.header :: seg.body

namespace Cut

/-- The lines of a cut. -/
def lines (c : Cut isHeader) : List Text := c.before ++ c.segments.flatMap Segment.lines

/-- The cut with one more line in front. The lines before the first header become the body of a header
line put there. -/
def cons (line : Text) (c : Cut isHeader) : Cut isHeader :=
  if h : isHeader line = true then ⟨[], ⟨line, c.before, h, c.before_plain⟩ :: c.segments, by simp⟩
  else
    ⟨line :: c.before, c.segments,
      List.forall_mem_cons.2 ⟨eq_false_of_ne_true h, c.before_plain⟩⟩

/-- The cut of a list of lines. -/
def ofLines : List Text → Cut isHeader
  | [] => ⟨[], [], by simp⟩
  | line :: lines => cons line (ofLines lines)

theorem lines_ofLines (ls : List Text) : (ofLines ls : Cut isHeader).lines = ls := by
  induction ls with
  | nil => rfl
  | cons line ls ih =>
    rw [ofLines, cons]
    split
    · rw [← congrArg (line :: ·) ih]
      simp [lines, Segment.lines]
    · exact congrArg (line :: ·) ih

theorem ofLines_plain {ls : List Text} (h : ∀ line ∈ ls, isHeader line = false) (rest : List Text) :
    (ofLines (ls ++ rest) : Cut isHeader).before = ls ++ (ofLines rest : Cut isHeader).before ∧
      (ofLines (ls ++ rest) : Cut isHeader).segments = (ofLines rest : Cut isHeader).segments := by
  induction ls with
  | nil => exact ⟨rfl, rfl⟩
  | cons line ls ih =>
    obtain ⟨hline, hls⟩ := List.forall_mem_cons.1 h
    obtain ⟨hbefore, hsegments⟩ := ih hls
    have hplain : ¬isHeader line = true := by simp [hline]
    rw [List.cons_append, ofLines, cons, dif_neg hplain]
    exact ⟨congrArg (line :: ·) hbefore, hsegments⟩

/-- Any division at the header lines is the one that cutting gives. -/
theorem ofLines_lines (c : Cut isHeader) : ofLines c.lines = c := by
  have hsegments (segs : List (Segment isHeader)) :
      ofLines (segs.flatMap Segment.lines) = (⟨[], segs, by simp⟩ : Cut isHeader) := by
    induction segs with
    | nil => rfl
    | cons seg segs ih =>
      obtain ⟨hbody, hrest⟩ := ofLines_plain seg.body_plain (segs.flatMap Segment.lines)
      rw [ih, List.append_nil] at hbody
      rw [ih] at hrest
      rw [List.flatMap_cons, Segment.lines, List.cons_append, ofLines, cons,
        dif_pos seg.isHeader_header]
      simp only [hbody, hrest]
  obtain ⟨before, segs, hplain⟩ := c
  obtain ⟨hbefore, hrest⟩ := ofLines_plain hplain (segs.flatMap Segment.lines)
  rw [hsegments, List.append_nil] at hbefore
  rw [hsegments] at hrest
  cases hc : ofLines (before ++ segs.flatMap Segment.lines) with
  | mk b s hb =>
    rw [hc] at hbefore hrest
    cases hbefore
    cases hrest
    exact hc

theorem before_ofLines {ls : List Text} (h : ∀ line ∈ ls.head?, isHeader line = true) :
    (ofLines ls : Cut isHeader).before = [] := by
  cases ls with
  | nil => rfl
  | cons line ls => rw [ofLines, cons, dif_pos (h line rfl)]

/-- A header and plain lines after it are a segment, with the lines up to the first header after them. -/
theorem ofLines_block {header : Text} {body : List Text} (hheader : isHeader header = true)
    (hbody : ∀ line ∈ body, isHeader line = false) (rest : List Text) :
    (ofLines (header :: (body ++ rest)) : Cut isHeader).before = [] ∧
      (ofLines (header :: (body ++ rest)) : Cut isHeader).segments.map
          (fun seg => (seg.header, seg.body)) =
        (header, body ++ (ofLines rest : Cut isHeader).before) ::
          (ofLines rest : Cut isHeader).segments.map fun seg => (seg.header, seg.body) := by
  obtain ⟨hbefore, hsegments⟩ := ofLines_plain hbody rest
  rw [ofLines, cons, dif_pos hheader, ← hbefore, ← hsegments]
  exact ⟨rfl, rfl⟩

/-- The header lines are the headers of the segments. -/
theorem filter_lines (c : Cut isHeader) : c.lines.filter isHeader = c.segments.map (·.header) := by
  have hplain {ls : List Text} (h : ∀ line ∈ ls, isHeader line = false) : ls.filter isHeader = [] :=
    List.filter_eq_nil_iff.2 fun line hline => by simp [h line hline]
  have hsegments (segs : List (Segment isHeader)) :
      (segs.flatMap Segment.lines).filter isHeader = segs.map (·.header) := by
    induction segs with
    | nil => rfl
    | cons seg segs ih =>
      rw [List.flatMap_cons, List.filter_append, ih, Segment.lines,
        List.filter_cons_of_pos seg.isHeader_header, hplain seg.body_plain]
      rfl
  rw [lines, List.filter_append, hplain c.before_plain, hsegments, List.nil_append]

/-- The segments of lines are the parts that begin with a header and go on up to the next one. -/
theorem mem_segments_ofLines {ls : List Text} {seg : Segment isHeader} :
    seg ∈ (ofLines ls : Cut isHeader).segments ↔ ∃ before after, ls = before ++ (seg.lines ++ after) ∧
      ∀ line ∈ after.head?, isHeader line = true := by
  constructor
  · intro hseg
    have hlines : (ofLines ls : Cut isHeader).lines = ls := lines_ofLines ls
    generalize (ofLines ls : Cut isHeader) = c at hseg hlines
    obtain ⟨first, last, hsplit⟩ := List.append_of_mem hseg
    refine ⟨c.before ++ first.flatMap Segment.lines, last.flatMap Segment.lines, ?_, ?_⟩
    · rw [← hlines, lines, hsplit]
      simp
    · cases last with
      | nil => exact nofun
      | cons next last =>
        intro line hline
        obtain rfl := Option.some.inj hline
        exact next.isHeader_header
  · rintro ⟨before, after, rfl, hafter⟩
    let b : Cut isHeader := ofLines before
    let a : Cut isHeader := ofLines after
    have hlines : (⟨b.before, b.segments ++ seg :: a.segments, b.before_plain⟩ : Cut isHeader).lines =
        before ++ (seg.lines ++ after) := by
      have hb : b.before ++ b.segments.flatMap Segment.lines = before := lines_ofLines before
      have ha : a.segments.flatMap Segment.lines = after := by
        rw [← lines_ofLines after, lines, before_ofLines hafter, List.nil_append]
      simp only [lines, List.flatMap_append, List.flatMap_cons, ha]
      rw [← List.append_assoc, hb]
    rw [← hlines, ofLines_lines]
    exact List.mem_append_right _ List.mem_cons_self

end Cut

end Annals

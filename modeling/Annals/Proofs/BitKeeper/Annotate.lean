import Annals.BitKeeper.Annotate
import Annals.Proofs.Process.Feeding
import Annals.Proofs.Text.Fields

/-!
# BitKeeper annotations

A line is taken exactly if it is attributed (`failure?_feed_eq_none_iff`), and its record is written as the
same line again. So the records of a reader are at any time the lines that it has taken
(`all_of_isAttributed`), and the line that it refuses is the first that is not attributed
(`exists_refused`).
-/

namespace Annals

namespace AnnotatedLine

/-- The line that attributes a line of a file. -/
def written (l : AnnotatedLine) : Text := l.author ++ '\t' :: (l.revision ++ '\t' :: l.text)

/-- Whether the author and the revision are told apart by the tabs behind them. -/
def IsDistinct (l : AnnotatedLine) : Prop :=
  (l.author ≠ [] ∧ '\t' ∉ l.author) ∧ l.revision ≠ [] ∧ '\t' ∉ l.revision

end AnnotatedLine

namespace BitKeeper

/-- Whether a line has two tabs, with something before the first and something between them. -/
def IsAttributed (line : Text) : Prop :=
  ∃ author revision text, line = author ++ '\t' :: (revision ++ '\t' :: text) ∧
    (author ≠ [] ∧ '\t' ∉ author) ∧ revision ≠ [] ∧ '\t' ∉ revision

/-- Whether records are numbered from 1 on and are written as some lines. -/
structure Attributes (records : List AnnotatedLine) (lines : List Text) : Prop where
  written : records.map AnnotatedLine.written = lines
  numbered : ∀ p ∈ records.zipIdx 1, p.1.number = p.2
  distinct : ∀ l ∈ records, l.IsDistinct

theorem Attributes.nil : Attributes [] [] := ⟨rfl, nofun, nofun⟩

theorem Attributes.length_eq {records : List AnnotatedLine} {lines : List Text}
    (h : Attributes records lines) : records.length = lines.length := by
  rw [← h.written, List.length_map]

theorem Attributes.concat {records : List AnnotatedLine} {lines : List Text}
    (h : Attributes records lines) {l : AnnotatedLine} (hnumber : l.number = records.length + 1)
    (hdistinct : l.IsDistinct) : Attributes (records ++ [l]) (lines ++ [l.written]) := by
  refine ⟨?_, ?_, ?_⟩
  · rw [List.map_append, h.written]
    rfl
  · rw [List.zipIdx_append]
    refine List.forall_mem_append.mpr ⟨h.numbered, ?_⟩
    rw [List.zipIdx_singleton, List.forall_mem_singleton, hnumber]
    push_cast
    omega
  · exact List.forall_mem_append.mpr ⟨h.distinct, List.forall_mem_singleton.mpr hdistinct⟩

theorem fieldsUpTo_two_eq_iff {line author revision text : Text} :
    Text.fieldsUpTo '\t' 2 line = [author, revision, text] ↔
      line = author ++ '\t' :: (revision ++ '\t' :: text) ∧ '\t' ∉ author ∧ '\t' ∉ revision := by
  constructor
  · intro h
    rw [Text.fieldsUpTo] at h
    cases hfirst : Text.cut '\t' line with
    | none => simp [hfirst] at h
    | some first =>
      obtain ⟨a, rest⟩ := first
      simp only [hfirst, Text.fieldsUpTo] at h
      cases hsecond : Text.cut '\t' rest with
      | none => simp [hsecond] at h
      | some second =>
        obtain ⟨v, t⟩ := second
        simp only [hsecond, List.cons.injEq, and_true] at h
        obtain ⟨rfl, rfl, rfl⟩ := h
        obtain ⟨rfl, ha⟩ := Text.cut_eq_some_iff.mp hfirst
        obtain ⟨rfl, hv⟩ := Text.cut_eq_some_iff.mp hsecond
        exact ⟨rfl, ha, hv⟩
  · rintro ⟨rfl, ha, hv⟩
    rw [Text.fieldsUpTo_append 1 _ ha, Text.fieldsUpTo_append 0 _ hv]
    rfl

namespace AnnotationReader

variable {r : AnnotationReader} {line : Text} {lines taken : List Text}

/-! ## One line -/

theorem feed_attributed {author revision : Text} (hauthor : author ≠ [] ∧ '\t' ∉ author)
    (hrevision : revision ≠ [] ∧ '\t' ∉ revision) (text : Text) :
    r.feed (author ++ '\t' :: (revision ++ '\t' :: text)) =
      ⟨{ r with lines := r.lines ++ [⟨r.lines.length + 1, revision, author, text⟩] }, [], none⟩ := by
  have hfields : Text.fieldsUpTo '\t' 2 (author ++ '\t' :: (revision ++ '\t' :: text)) =
      [author, revision, text] := fieldsUpTo_two_eq_iff.mpr ⟨rfl, hauthor.2, hrevision.2⟩
  obtain ⟨a, author, rfl⟩ := List.exists_cons_of_ne_nil hauthor.1
  obtain ⟨v, revision, rfl⟩ := List.exists_cons_of_ne_nil hrevision.1
  rw [feed, hfields]
  rfl

theorem feed_of_not_isAttributed (h : ¬IsAttributed line) :
    r.feed line =
      ⟨r, [], some (.malformed (.annotationLine (r.lines.length + 1) r.filename line))⟩ := by
  unfold feed
  dsimp only
  split
  · next a author v revision text hfields =>
    obtain ⟨hline, ha, hv⟩ := fieldsUpTo_two_eq_iff.mp hfields
    exact absurd ⟨a :: author, v :: revision, text, hline, ⟨List.cons_ne_nil _ _, ha⟩,
      List.cons_ne_nil _ _, hv⟩ h
  · rfl

/-- A line that is taken preserves that the records are the lines that were taken. -/
theorem feed_of_isAttributed (h : IsAttributed line) (hr : Attributes r.lines taken) :
    Attributes (r.feed line).state.lines (taken ++ [line]) := by
  obtain ⟨author, revision, text, rfl, hauthor, hrevision⟩ := h
  rw [feed_attributed hauthor hrevision]
  exact hr.concat (l := ⟨r.lines.length + 1, revision, author, text⟩) rfl ⟨hauthor, hrevision⟩

theorem failure?_feed_eq_none_iff : (r.feed line).failure? = none ↔ IsAttributed line := by
  constructor
  · intro h
    by_contra hnot
    rw [feed_of_not_isAttributed hnot] at h
    contradiction
  · rintro ⟨author, revision, text, rfl, hauthor, hrevision⟩
    rw [feed_attributed hauthor hrevision]

instance (line : Text) : Decidable (IsAttributed line) :=
  decidable_of_iff ((feed { filename := [] } line).failure? = none) failure?_feed_eq_none_iff

/-! ## All lines -/

theorem filename_all (r : AnnotationReader) (lines : List Text) :
    (Fed.all feed r lines).state.filename = r.filename := by
  refine Fed.all_invariant (P := fun r' : AnnotationReader => r'.filename = r.filename) ?_ rfl lines
  intro r' line hr'
  unfold feed
  dsimp only
  split <;> exact hr'

theorem all_of_isAttributed (hr : Attributes r.lines taken) (h : ∀ line ∈ lines, IsAttributed line) :
    Attributes (Fed.all feed r lines).state.lines (taken ++ lines) := by
  induction lines generalizing r taken with
  | nil => simpa [Fed.all] using hr
  | cons line lines ih =>
    obtain ⟨hline, hlines⟩ := List.forall_mem_cons.mp h
    have hok : (r.feed line).failure? = none := failure?_feed_eq_none_iff.mpr hline
    have hrest := ih (feed_of_isAttributed hline hr) hlines
    simpa only [Fed.all, hok, List.append_assoc, List.singleton_append] using hrest

theorem failure?_all_eq_none_iff :
    (Fed.all feed r lines).failure? = none ↔ ∀ line ∈ lines, IsAttributed line := by
  have hfeed (r : AnnotationReader) (line : Text) :
      (feed r line).failure? = none ↔ IsAttributed line := failure?_feed_eq_none_iff
  exact Fed.failure?_all_eq_none_iff hfeed r lines

/-- The line that is refused is the first that is not attributed, and its number is told. -/
theorem exists_refused (filename : Text) (h : ¬∀ line ∈ lines, IsAttributed line) :
    ∃ before line after, lines = before ++ line :: after ∧ (∀ line ∈ before, IsAttributed line) ∧
      ¬IsAttributed line ∧ (Fed.all feed { filename } lines).failure? =
        some (.malformed (.annotationLine (before.length + 1) filename line)) := by
  have hrefused : (Fed.all feed { filename } lines).failure? ≠ none := mt failure?_all_eq_none_iff.mp h
  obtain ⟨f, hf⟩ := Option.ne_none_iff_exists'.mp hrefused
  obtain ⟨before, line, after, rfl, hbefore, hline⟩ := Fed.failure?_all_eq_some_iff.mp hf
  have hattributed := failure?_all_eq_none_iff.mp hbefore
  have hnot : ¬IsAttributed line := by
    intro hline'
    rw [failure?_feed_eq_none_iff.mpr hline'] at hline
    contradiction
  refine ⟨before, line, after, rfl, hattributed, hnot, ?_⟩
  have hlength := (all_of_isAttributed (r := { filename }) .nil hattributed).length_eq
  rw [feed_of_not_isAttributed hnot, filename_all, hlength] at hline
  rw [hf, ← hline]
  rfl

end AnnotationReader

end BitKeeper

end Annals

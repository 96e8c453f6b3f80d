import Annals.Proofs.Repository.Tasks

/-!
# Lines by their numbers

The readers of annotations number the lines that they read from 1 on (`isNumbered_of_readAnnotation`), so
that looking a number up finds the line that bears it. Numbers below 1 are borne by no line, but count back
from the last one: what is found then is the line whose number is larger by as many as there are lines
(`line?_eq_some_iff`). So a number is looked up as it should be unless it counts back to a line
(`lookup_agrees_iff`), as 0 does to the last one (`not_agreesAt`).
-/

namespace Annals

namespace Annotation

/-! ## Numbered lines -/

/-- Whether lines are numbered in their order, from 1 on. -/
def IsNumbered (lines : List AnnotatedLine) : Prop :=
  ∀ (i : Nat) (l : AnnotatedLine), lines[i]? = some l → l.number = i + 1

namespace IsNumbered

variable {lines : List AnnotatedLine} {l : AnnotatedLine} {n : Int}

theorem nil : IsNumbered [] := nofun

theorem concat (h : IsNumbered lines) (hl : l.number = lines.length + 1) :
    IsNumbered (lines ++ [l]) := by
  intro i m hm
  rcases Nat.lt_trichotomy i lines.length with hi | rfl | hi
  · rw [List.getElem?_append_left hi] at hm
    exact h i m hm
  · rw [List.getElem?_concat_length] at hm
    obtain rfl := Option.some.inj hm
    exact hl
  · have hlength : (lines ++ [l]).length ≤ i := by
      rw [List.length_append, List.length_singleton]
      exact hi
    rw [List.getElem?_eq_none hlength] at hm
    exact nomatch hm

/-- The line at a position is the one with the number of that position. -/
theorem getElem?_eq_some_iff (h : IsNumbered lines) {i : Nat} :
    lines[i]? = some l ↔ l ∈ lines ∧ l.number = i + 1 := by
  constructor
  · intro hi
    exact ⟨List.mem_of_getElem? hi, h i l hi⟩
  · rintro ⟨hl, hnumber⟩
    obtain ⟨j, hj⟩ := List.mem_iff_getElem?.mp hl
    have hsame := h j l hj
    obtain rfl : i = j := by omega
    exact hj

theorem bounds (h : IsNumbered lines) (hl : l ∈ lines) : 1 ≤ l.number ∧ l.number ≤ lines.length := by
  obtain ⟨i, hi⟩ := List.mem_iff_getElem?.mp hl
  have hlt := (List.getElem?_eq_some_iff.mp hi).1
  have hnumber := h i l hi
  omega

theorem exists_iff (h : IsNumbered lines) :
    (∃ l ∈ lines, l.number = n) ↔ 1 ≤ n ∧ n ≤ lines.length := by
  constructor
  · rintro ⟨l, hl, rfl⟩
    exact h.bounds hl
  · rintro ⟨hpos, hle⟩
    have hlt : (n - 1).toNat < lines.length := by omega
    have hnumber := h _ _ (List.getElem?_eq_getElem hlt)
    exact ⟨_, List.getElem_mem hlt, by omega⟩

end IsNumbered

/-! ## Lookups -/

variable {a : Annotation} {l : AnnotatedLine} {n : Int}

/-- What is found is the line with the number, or for a number below 1 the line with the number that is
larger by as many as there are lines. -/
theorem line?_eq_some_iff (h : IsNumbered a.lines) : a.line? n = some l ↔
    l ∈ a.lines ∧ (l.number = n ∨ n < 1 ∧ l.number = n + a.lines.length) := by
  rw [line?]
  split
  · next hpos =>
    rw [h.getElem?_eq_some_iff]
    refine and_congr_right fun hl => ?_
    omega
  · next hneg =>
    split
    · next hback =>
      rw [h.getElem?_eq_some_iff]
      refine and_congr_right fun hl => ?_
      have hbounds := h.bounds hl
      omega
    · next hfar =>
      refine iff_of_false nofun fun ⟨hl, hnumber⟩ => ?_
      have hbounds := h.bounds hl
      omega

/-- How many lines can be counted. No list in memory is longer. -/
def maxLines : Nat := 0x8000000000000000

/-- A line that is found can be counted to, if all lines can. -/
theorem line_eq_ok_iff (h : IsNumbered a.lines) (hcount : a.lines.length ≤ maxLines) :
    a.line n = .ok l ↔ a.line? n = some l := by
  rw [line]
  split
  · cases a.line? n <;> simp
  · next hposition =>
    refine iff_of_false nofun fun hfound => hposition ?_
    obtain ⟨hl, hnumber⟩ := (line?_eq_some_iff h).mp hfound
    have hbounds := h.bounds hl
    rw [maxLines] at hcount
    simp only [isPosition, Bool.and_eq_true, decide_eq_true_eq]
    omega

/-- Whether looking a number up gives a line's revision and author. -/
def LooksUp (a : Annotation) (n : Int) (l : AnnotatedLine) : Prop :=
  a.revision n = .ok l.revision ∧ a.author n = .ok l.author

/-- Whether looking a number up is refused. -/
def Refuses (a : Annotation) (n : Int) : Prop :=
  ∃ fault, a.revision n = .error fault ∧ a.author n = .error fault ∧
    (Failure.noSuchLine fault).kind = .index

/-- Whether a number is looked up as it should be: what is found is the line with the number, and if there
is none, the number is refused. -/
structure AgreesAt (a : Annotation) (n : Int) : Prop where
  found : ∀ l ∈ a.lines, l.number = n → a.LooksUp n l
  refused : (∀ l ∈ a.lines, l.number ≠ n) → a.Refuses n

theorem looksUp_of_line (h : a.line n = .ok l) : a.LooksUp n l := by
  rw [LooksUp, revision, author, h]
  exact ⟨rfl, rfl⟩

theorem refuses_of_line {fault : LineFault} (h : a.line n = .error fault) : a.Refuses n := by
  refine ⟨fault, ?_, ?_, rfl⟩
  · rw [revision, h]
    rfl
  · rw [author, h]
    rfl

theorem not_refuses_of_looksUp (h : a.LooksUp n l) : ¬a.Refuses n := by
  rintro ⟨fault, hfault, -⟩
  exact nomatch hfault.symm.trans h.1

theorem looksUp_of_mem (h : IsNumbered a.lines) (hcount : a.lines.length ≤ maxLines) (hl : l ∈ a.lines)
    (hnumber : l.number = n ∨ n < 1 ∧ l.number = n + a.lines.length) : a.LooksUp n l := by
  apply looksUp_of_line
  rw [line_eq_ok_iff h hcount, line?_eq_some_iff h]
  exact ⟨hl, hnumber⟩

/-- A number is looked up as it should be unless it counts back from the last line to some line. -/
theorem agreesAt_iff (h : IsNumbered a.lines) (hcount : a.lines.length ≤ maxLines) :
    a.AgreesAt n ↔ ¬(1 - (a.lines.length : Int) ≤ n ∧ n < 1) := by
  constructor
  · rintro hagrees ⟨hback, hlow⟩
    obtain ⟨l, hl, hnumber⟩ := (h.exists_iff (n := n + a.lines.length)).mpr (by omega)
    have hnone : ∀ m ∈ a.lines, m.number ≠ n := by
      intro m hm hsame
      have hbounds := h.bounds hm
      omega
    have hfound := looksUp_of_mem h hcount hl (Or.inr ⟨hlow, hnumber⟩)
    exact not_refuses_of_looksUp hfound (hagrees.refused hnone)
  · intro hfar
    refine ⟨fun l hl hnumber => looksUp_of_mem h hcount hl (Or.inl hnumber), fun hnone => ?_⟩
    cases hline : a.line n with
    | error fault => exact refuses_of_line hline
    | ok l =>
      obtain ⟨hl, hsame | ⟨hlow, hback⟩⟩ := (line?_eq_some_iff h).mp ((line_eq_ok_iff h hcount).mp hline)
      · exact absurd hsame (hnone l hl)
      · have hbounds := h.bounds hl
        exact absurd ⟨by omega, hlow⟩ hfar

end Annotation

/-! ## Readers -/

open Annotation (IsNumbered)

theorem BitKeeper.AnnotationReader.isNumbered_all (filename : Text) (lines : List Text) :
    IsNumbered (Fed.all feed { filename } lines).state.lines := by
  apply Fed.all_invariant (P := fun r : AnnotationReader => IsNumbered r.lines) ?_ .nil lines
  intro r line hr
  unfold feed
  dsimp only
  split
  · exact hr.concat rfl
  · exact hr

namespace Git.BlameReader

theorem isNumbered_openBlock {r : BlameReader} (h : IsNumbered r.lines) (line : Text) :
    IsNumbered (r.openBlock line).state.lines := by
  unfold openBlock
  split
  · exact h
  · split
    · exact h
    · split <;> exact h

theorem isNumbered_extendBlock {r : BlameReader} (h : IsNumbered r.lines) (revision line : Text) :
    IsNumbered (r.extendBlock revision line).lines := by
  unfold extendBlock
  split
  · exact h.concat rfl
  · split <;> exact h

theorem isNumbered_all (filename : Text) (lines : List Text) :
    IsNumbered (Fed.all feed { filename } lines).state.lines := by
  apply Fed.all_invariant (P := fun r : BlameReader => IsNumbered r.lines) ?_ .nil lines
  intro r line hr
  unfold feed
  split
  · exact isNumbered_openBlock hr line
  · exact isNumbered_extendBlock hr _ line

theorem lines_annotation {r : BlameReader} {a : Annotation} (h : r.annotation = .ok a) :
    a.lines = r.lines := by
  unfold annotation at h
  split at h
  · rw [← Except.ok.inj h]
  · exact nomatch h

end Git.BlameReader

namespace Backend

open Repository (annotationRefusal? annotationOf)

/-- The annotation that is read from lines, or why there is none. -/
def readAnnotation (b : Backend) (filename : Text) (lines : List Text) : Except Failure Annotation :=
  match annotationRefusal? b filename lines with
  | some f => .error f
  | none => annotationOf b filename lines

theorem isNumbered_of_readAnnotation {b : Backend} {filename : Text} {lines : List Text} {a : Annotation}
    (h : b.readAnnotation filename lines = .ok a) : IsNumbered a.lines := by
  unfold readAnnotation at h
  split at h
  · exact nomatch h
  · cases b with
    | bitkeeper =>
      rw [← Except.ok.inj h]
      exact BitKeeper.AnnotationReader.isNumbered_all filename lines
    | git =>
      rw [Git.BlameReader.lines_annotation h]
      exact Git.BlameReader.isNumbered_all filename lines

/-- Of an annotation that was read, the numbers of lines are those from 1 on, and a number is looked up as
it should be unless it counts back from the last line to some line, which is then what is found. -/
theorem lookup_agrees_iff (b : Backend) (filename : Text) (lines : List Text) (a : Annotation) (n : Int)
    (h : b.readAnnotation filename lines = .ok a) (hcount : a.lines.length ≤ Annotation.maxLines) :
    ((∃ l ∈ a.lines, l.number = n) ↔ 1 ≤ n ∧ n ≤ a.lines.length) ∧
    (a.AgreesAt n ↔ ¬(1 - (a.lines.length : Int) ≤ n ∧ n < 1)) ∧
    ∀ l ∈ a.lines, n < 1 → l.number = n + a.lines.length → a.LooksUp n l := by
  have hnumbered := isNumbered_of_readAnnotation h
  exact ⟨hnumbered.exists_iff, Annotation.agreesAt_iff hnumbered hcount, fun l hl hlow hnumber =>
    Annotation.looksUp_of_mem hnumbered hcount hl (Or.inr ⟨hlow, hnumber⟩)⟩

/-- Two lines of a file. -/
def twoLines : List Text := ["ann\t1.1\tone", "bob\t1.2\ttwo"]

/-- What is read of them. -/
def twoRecords : Annotation := ⟨"f", [⟨1, "1.1", "ann", "one"⟩, ⟨2, "1.2", "bob", "two"⟩]⟩

theorem readAnnotation_twoLines : bitkeeper.readAnnotation "f" twoLines = .ok twoRecords := rfl

theorem lookup_agrees_iff_of_twoLines :
    bitkeeper.readAnnotation "f" twoLines = .ok twoRecords ∧
      twoRecords.AgreesAt 2 ∧ twoRecords.AgreesAt 3 ∧ twoRecords.AgreesAt (-2) ∧
      twoRecords.LooksUp (-1) ⟨1, "1.1", "ann", "one"⟩ := by
  have hcount : twoRecords.lines.length ≤ Annotation.maxLines := by decide
  have hlookup (n : Int) :=
    lookup_agrees_iff .bitkeeper "f" twoLines twoRecords n readAnnotation_twoLines hcount
  refine ⟨readAnnotation_twoLines, (hlookup 2).2.1.mpr ?_, (hlookup 3).2.1.mpr ?_, (hlookup (-2)).2.1.mpr ?_,
    (hlookup (-1)).2.2 _ List.mem_cons_self ?_ ?_⟩ <;> decide

/-- The number 0 is looked up as if it were that of the last line. -/
theorem not_agreesAt :
    ¬∀ (b : Backend) (filename : Text) (lines : List Text) (a : Annotation) (n : Int),
      b.readAnnotation filename lines = .ok a → a.AgreesAt n := by
  intro h
  have hzero := h .bitkeeper "f" twoLines twoRecords 0 readAnnotation_twoLines
  have hrefused := hzero.refused (by decide)
  have hfound : twoRecords.LooksUp 0 ⟨2, "1.2", "bob", "two"⟩ := ⟨rfl, rfl⟩
  exact Annotation.not_refuses_of_looksUp hfound hrefused

end Backend

end Annals

import Annals.Proofs.Render.Blocks
import Annals.Proofs.Repository.Lookups
import Annals.Proofs.Text.Columns
import Mathlib.Data.List.Forall2

/-!
# Printed tables

Annotations and lists of tags are printed as tables, whose columns are as wide as the longest text in them.
So every cell is padded to the width of its column and none is cut, and the cells of a column begin at one
offset in all rows (`tables_aligned`). The column of numbers is as wide as the count of the lines is long,
which is the longest number if the lines are numbered in their order (`Annotation.isWidest_numbers`). The rows
of tags lose the blanks at their ends, and so no more of their cells than blanks at the ends of the last ones
(`Text.StandsAt.trimmed`).
-/

namespace Annals

open Text (StandsAt FlushLeft FlushRight LosesBlanks IsWidest)

/-! ## Annotations -/

theorem Text.newline_notMem_ofInt (n : Int) : '\n' ∉ ofInt n := by
  cases n with
  | ofNat n => exact newline_notMem_ofNat n
  | negSucc n => exact List.not_mem_cons_of_ne_of_not_mem (by decide) (newline_notMem_ofNat _)

/-- Whether no text of a line that is printed holds the end of a line. -/
structure AnnotatedLine.FitsLine (l : AnnotatedLine) : Prop where
  revision : '\n' ∉ l.revision
  author : '\n' ∉ l.author
  text : '\n' ∉ l.text

instance (l : AnnotatedLine) : Decidable l.FitsLine :=
  decidable_of_iff ('\n' ∉ l.revision ∧ '\n' ∉ l.author ∧ '\n' ∉ l.text)
    ⟨fun ⟨hrevision, hauthor, htext⟩ => ⟨hrevision, hauthor, htext⟩,
      fun h => ⟨h.revision, h.author, h.text⟩⟩

namespace Annotation

/-- How wide the columns before the text are. -/
structure Widths where
  number : Nat
  revision : Nat
  author : Nat

namespace Widths

variable (w : Widths)

def revisionStart : Nat := w.number + 1

def authorStart : Nat := w.revisionStart + w.revision + 1

def textStart : Nat := w.authorStart + w.author + 1

/-- Whether every column is as wide as the longest text in it. -/
structure Fit (lines : List AnnotatedLine) : Prop where
  number : IsWidest w.number (lines.map fun l => Text.ofInt l.number)
  revision : IsWidest w.revision (lines.map (·.revision))
  author : IsWidest w.author (lines.map (·.author))

/-- Whether a row shows a line: the number on the right of its column, the revision and the author on the
left of theirs, and the text as it is, each behind one blank and at the offset of its column. -/
structure Shows (l : AnnotatedLine) (row : Text) : Prop where
  cells : ∃ number revision author, FlushRight w.number (Text.ofInt l.number) number ∧
    FlushLeft w.revision l.revision revision ∧ FlushLeft w.author l.author author ∧
    row = number ++ " " ++ revision ++ " " ++ author ++ " " ++ l.text
  revision : StandsAt w.revisionStart l.revision row
  author : StandsAt w.authorStart l.author row
  text : row.drop w.textStart = l.text

variable {w} {lines : List AnnotatedLine} {l : AnnotatedLine}

/-- The widths of the cells alone say where the columns begin. -/
theorem Shows.of_cells {number revision author : Text}
    (hnumber : FlushRight w.number (Text.ofInt l.number) number)
    (hrevision : FlushLeft w.revision l.revision revision)
    (hauthor : FlushLeft w.author l.author author) :
    w.Shows l (number ++ " " ++ revision ++ " " ++ author ++ " " ++ l.text) := by
  have hrevisionStart : (number ++ " ").length = w.revisionStart := by
    rw [List.length_append, hnumber.length_eq]
    rfl
  have hauthorStart : (number ++ " " ++ revision ++ " ").length = w.authorStart := by
    rw [List.length_append, List.length_append, hrevisionStart, hrevision.length_eq]
    rfl
  have htextStart : (number ++ " " ++ revision ++ " " ++ author ++ " ").length = w.textStart := by
    rw [List.length_append, List.length_append, hauthorStart, hauthor.length_eq]
    rfl
  refine ⟨⟨_, _, _, hnumber, hrevision, hauthor, rfl⟩, ?_, ?_, List.drop_left' htextStart⟩
  · have hstands := StandsAt.of_flushLeft hrevision hrevisionStart (" " ++ author ++ " " ++ l.text)
    simpa only [List.append_assoc] using hstands
  · have hstands := StandsAt.of_flushLeft hauthor hauthorStart (" " ++ l.text)
    simpa only [List.append_assoc] using hstands

theorem Fit.shows_row (h : w.Fit lines) (hl : l ∈ lines) :
    w.Shows l (row w.number w.revision w.author l) :=
  .of_cells (Text.flushRight_padLeft (h.number.le_of_mem_map hl))
    (Text.flushLeft_padRight (h.revision.le_of_mem_map hl))
    (Text.flushLeft_padRight (h.author.le_of_mem_map hl))

end Widths

/-- If lines are numbered in their order, the longest number is how many there are. -/
theorem isWidest_numbers {lines : List AnnotatedLine} (hne : lines ≠ []) (h : IsNumbered lines) :
    IsWidest (Text.ofNat lines.length).length (lines.map fun l => Text.ofInt l.number) := by
  refine ⟨List.forall_mem_map.mpr fun l hl => ?_, ?_⟩
  · obtain ⟨hpos, hle⟩ := h.bounds hl
    obtain ⟨n, hn⟩ := Int.eq_ofNat_of_zero_le (Int.le_trans Int.one_nonneg hpos)
    rw [hn] at hle ⊢
    exact Text.length_ofNat_le (Int.ofNat_le.mp hle)
  · -- the last line bears the longest number
    have hcount : (1 : Int) ≤ lines.length := by
      have hpos := List.length_pos_of_ne_nil hne
      omega
    obtain ⟨l, hl, hnumber⟩ := h.exists_iff.mpr ⟨hcount, Int.le_refl _⟩
    refine ⟨_, List.mem_map_of_mem hl, ?_⟩
    rw [hnumber]
    rfl

/-- The widths of the columns of a printed annotation. -/
def widths (a : Annotation) : Widths where
  number := (Text.ofNat a.lines.length).length
  revision := widest (a.lines.map (·.revision))
  author := widest (a.lines.map (·.author))

variable {a : Annotation}

theorem fit_widths (hne : a.lines ≠ []) (h : IsNumbered a.lines) : a.widths.Fit a.lines where
  number := isWidest_numbers hne h
  revision := Text.isWidest_widest (mt List.map_eq_nil_iff.mp hne)
  author := Text.isWidest_widest (mt List.map_eq_nil_iff.mp hne)

theorem newline_notMem_row {l : AnnotatedLine} (h : l.FitsLine) (number revision author : Nat) :
    '\n' ∉ row number revision author l := by
  have hgap : '\n' ∉ (" " : Text) := Text.newline_notMem_spaces 1
  have hnumber : '\n' ∉ Text.padLeft number (Text.ofInt l.number) :=
    Text.newline_notMem_padLeft (Text.newline_notMem_ofInt l.number)
  have hrevision : '\n' ∉ Text.padRight revision l.revision := Text.newline_notMem_padRight h.revision
  have hauthor : '\n' ∉ Text.padRight author l.author := Text.newline_notMem_padRight h.author
  simp only [row, List.mem_append, not_or]
  exact ⟨⟨⟨⟨⟨⟨hnumber, hgap⟩, hrevision⟩, hgap⟩, hauthor⟩, hgap⟩, h.text⟩

theorem fields_plain (hne : a.lines ≠ []) (hfits : ∀ l ∈ a.lines, l.FitsLine) :
    Text.fields '\n' a.plain =
      a.lines.map (row a.widths.number a.widths.revision a.widths.author) := by
  rw [plain, if_neg (by simpa using hne)]
  refine Text.fields_join (mt List.map_eq_nil_iff.mp hne) (List.forall_mem_map.mpr fun l hl => ?_)
  exact newline_notMem_row (hfits l hl) _ _ _

end Annotation

/-! ## Tags -/

namespace Moment

theorem exists_mem_display (m : Moment) : ∃ c ∈ m.display, ¬isBlank c :=
  ⟨'-', by simp [display], by decide⟩

theorem not_isBlank_offsetText (offset : Int) : ∀ c ∈ offsetText offset, ¬isBlank c := by
  have hpadded (w n : Nat) : ∀ c ∈ Text.ofNatPadded w n, ¬isBlank c :=
    fun c => Text.not_isBlank_of_mem_ofNatPadded
  unfold offsetText
  simp only [List.forall_mem_append]
  refine ⟨⟨⟨⟨⟨?_, hpadded _ _⟩, Text.not_isBlank_of_all rfl⟩, hpadded _ _⟩, ?_⟩, ?_⟩
  · split <;> exact Text.not_isBlank_of_all rfl
  · split
    · exact nofun
    · exact List.forall_mem_cons.mpr ⟨by decide, hpadded _ _⟩
  · split
    · exact nofun
    · exact List.forall_mem_cons.mpr ⟨by decide, hpadded _ _⟩

/-- If the clock is known, a date ends with its name. -/
theorem not_isBlank_getLast?_display {m : Moment} (h : m.isZoned = true) :
    ∀ c ∈ m.display.getLast?, ¬isBlank c := by
  obtain ⟨offset, hoffset⟩ := Option.isSome_iff_exists.mp h
  have hutc : ∀ c ∈ ("UTC" : Text), ¬isBlank c := Text.not_isBlank_of_all rfl
  have hzone : m.zoneName ≠ [] ∧ ∀ c ∈ m.zoneName, ¬isBlank c := by
    rw [zoneName, hoffset]
    dsimp only
    split
    · exact ⟨by decide, hutc⟩
    · refine ⟨List.append_ne_nil_of_left_ne_nil (by decide) _, ?_⟩
      exact List.forall_mem_append.mpr ⟨hutc, not_isBlank_offsetText offset⟩
  rw [display, List.getLast?_append_of_ne_nil _ hzone.1]
  exact fun c hc => hzone.2 c (List.mem_of_mem_getLast? hc)

end Moment

/-- Whether no text of a tag record that is printed holds the end of a line. -/
structure Tag.FitsLine (t : Tag) : Prop where
  revision : '\n' ∉ t.revision
  names : ∀ name ∈ t.names, '\n' ∉ name

instance (t : Tag) : Decidable t.FitsLine :=
  decidable_of_iff ('\n' ∉ t.revision ∧ ∀ name ∈ t.names, '\n' ∉ name)
    ⟨fun ⟨hrevision, hnames⟩ => ⟨hrevision, hnames⟩, fun h => ⟨h.revision, h.names⟩⟩

namespace Tag

/-- The names of a record, as they are printed. -/
def namesText (t : Tag) : Text := Text.join ", " t.names

/-- How wide the columns are. -/
structure Widths where
  revision : Nat
  date : Nat
  names : Nat

namespace Widths

variable (w : Widths)

def dateStart : Nat := w.revision + 2

def namesStart : Nat := w.dateStart + w.date + 2

/-- Whether every column is as wide as the longest text in it, its head among them. -/
structure Fit (tags : List Tag) : Prop where
  revision : IsWidest w.revision ("REVISION" :: tags.map (·.revision))
  date : IsWidest w.date ("DATE" :: tags.map (·.date.display))
  names : IsWidest w.names ("TAGS" :: tags.map namesText)

/-- Whether a row holds texts as they are, on the left of their columns and at the offsets of these, with two
blanks between columns. -/
structure Holds (revision date names row : Text) : Prop where
  cells : ∃ first second third, FlushLeft w.revision revision first ∧ FlushLeft w.date date second ∧
    FlushLeft w.names names third ∧ row = first ++ "  " ++ second ++ "  " ++ third
  revision : StandsAt 0 revision row
  date : StandsAt w.dateStart date row
  names : StandsAt w.namesStart names row

/-- Whether a row shows texts: it holds them, but for the blanks at its end. So the revision is whole, and of
the date and the names nothing is missing but blanks at their ends. -/
structure Shows (revision date names row : Text) : Prop where
  exists_holds : ∃ padded, w.Holds revision date names padded ∧ LosesBlanks padded row
  revision : StandsAt 0 revision row
  date : StandsAt w.dateStart (Text.trimEnd date) row
  names : StandsAt w.namesStart (Text.trimEnd names) row

/-- Whether a row shows a record. If the clock is known, the date does not end in a blank and is whole. -/
structure ShowsTag (t : Tag) (row : Text) : Prop
    extends w.Shows t.revision t.date.display t.namesText row where
  zoned : t.date.isZoned = true → StandsAt w.dateStart t.date.display row

/-- The row of three texts in the columns. -/
def row (revision date names : Text) : Text :=
  tableRow [w.revision, w.date, w.names] [revision, date, names]

variable {w} {tags : List Tag} {t : Tag} {revision date names : Text}

theorem row_eq : w.row revision date names =
    Text.trimEnd (Text.padRight w.revision revision ++ "  " ++ Text.padRight w.date date ++ "  " ++
      Text.padRight w.names names) := by
  simp [row, tableRow, Text.join, List.append_assoc]

theorem newline_notMem_row (hrevision : '\n' ∉ revision) (hdate : '\n' ∉ date)
    (hnames : '\n' ∉ names) : '\n' ∉ w.row revision date names := by
  have hgap : '\n' ∉ ("  " : Text) := Text.newline_notMem_spaces 2
  have hfirst : '\n' ∉ Text.padRight w.revision revision := Text.newline_notMem_padRight hrevision
  have hsecond : '\n' ∉ Text.padRight w.date date := Text.newline_notMem_padRight hdate
  have hthird : '\n' ∉ Text.padRight w.names names := Text.newline_notMem_padRight hnames
  rw [row_eq]
  refine mt (List.IsPrefix.mem · (Text.trimEnd_isPrefix _)) ?_
  simp only [List.mem_append, not_or]
  exact ⟨⟨⟨⟨hfirst, hgap⟩, hsecond⟩, hgap⟩, hthird⟩

theorem Holds.of_cells {first second third : Text} (hrevision : FlushLeft w.revision revision first)
    (hdate : FlushLeft w.date date second) (hnames : FlushLeft w.names names third) :
    w.Holds revision date names (first ++ "  " ++ second ++ "  " ++ third) := by
  have hdateStart : (first ++ "  ").length = w.dateStart := by
    rw [List.length_append, hrevision.length_eq]
    rfl
  have hnamesStart : (first ++ "  " ++ second ++ "  ").length = w.namesStart := by
    rw [List.length_append, List.length_append, hdateStart, hdate.length_eq]
    rfl
  refine ⟨⟨_, _, _, hrevision, hdate, hnames, rfl⟩, ?_, ?_, ?_⟩
  · have hstands := StandsAt.of_flushLeft hrevision List.length_nil ("  " ++ second ++ "  " ++ third)
    simpa only [List.append_assoc, List.nil_append] using hstands
  · have hstands := StandsAt.of_flushLeft hdate hdateStart ("  " ++ third)
    simpa only [List.append_assoc] using hstands
  · have hstands := StandsAt.of_flushLeft hnames hnamesStart []
    simpa only [List.append_nil] using hstands

/-- Texts that fit are shown, if the date is not blank. -/
theorem shows_row (hrevision : revision.length ≤ w.revision) (hdate : date.length ≤ w.date)
    (hnames : names.length ≤ w.names) (hsolid : ∃ c ∈ date, ¬isBlank c) :
    w.Shows revision date names (w.row revision date names) := by
  have hholds := Holds.of_cells (Text.flushLeft_padRight hrevision) (Text.flushLeft_padRight hdate)
    (Text.flushLeft_padRight hnames)
  -- the date keeps the blanks behind the revision from being at the end of the row
  have hbefore : 0 + revision.length ≤ w.dateStart := by
    rw [dateStart]
    omega
  rw [row_eq]
  exact ⟨⟨_, hholds, Text.losesBlanks_trimEnd _⟩,
    hholds.revision.trimmed_of_before hholds.date hbefore hsolid, hholds.date.trimmed,
    hholds.names.trimmed⟩

theorem Fit.shows_heads (h : w.Fit tags) :
    w.Shows "REVISION" "DATE" "TAGS" (w.row "REVISION" "DATE" "TAGS") :=
  shows_row (h.revision.1 _ List.mem_cons_self) (h.date.1 _ List.mem_cons_self)
    (h.names.1 _ List.mem_cons_self) ⟨'D', List.mem_cons_self, by decide⟩

theorem Fit.showsTag_row (h : w.Fit tags) (ht : t ∈ tags) :
    w.ShowsTag t (w.row t.revision t.date.display t.namesText) := by
  have hshows := shows_row (h.revision.le_of_mem_map_tail ht) (h.date.le_of_mem_map_tail ht)
    (h.names.le_of_mem_map_tail ht) t.date.exists_mem_display
  refine ⟨hshows, fun hzoned => ?_⟩
  have htrim : Text.trimEnd t.date.display = t.date.display :=
    dropEndWhile_eq_self (Moment.not_isBlank_getLast?_display hzoned)
  have hdate := hshows.date
  rwa [htrim] at hdate

end Widths

/-- The widths of the columns of a printed list of tags. -/
def widths (tags : List Tag) : Widths where
  revision := widest ("REVISION" :: tags.map (·.revision))
  date := widest ("DATE" :: tags.map (·.date.display))
  names := widest ("TAGS" :: tags.map namesText)

theorem fit_widths (tags : List Tag) : (widths tags).Fit tags where
  revision := Text.isWidest_widest (List.cons_ne_nil _ _)
  date := Text.isWidest_widest (List.cons_ne_nil _ _)
  names := Text.isWidest_widest (List.cons_ne_nil _ _)

theorem columnWidths_eq (tags : List Tag) :
    columnWidths (heads :: tags.map cells) =
      [(widths tags).revision, (widths tags).date, (widths tags).names] := by
  change (List.range 3).map _ = _
  simp only [List.map_cons, List.map_map]
  rfl

theorem FitsLine.namesText {t : Tag} (h : t.FitsLine) : '\n' ∉ t.namesText :=
  Text.notMem_join (by decide) h.names

theorem fields_table {tags : List Tag} (hne : tags ≠ []) (hfits : ∀ t ∈ tags, t.FitsLine) :
    Text.fields '\n' (table tags) = (widths tags).row "REVISION" "DATE" "TAGS" ::
      tags.map fun t => (widths tags).row t.revision t.date.display t.namesText := by
  -- the columns are those of the heads, and each row has a cell in every one of them
  have htable : table tags = Text.join ['\n'] ((widths tags).row "REVISION" "DATE" "TAGS" ::
      tags.map fun t => (widths tags).row t.revision t.date.display t.namesText) := by
    rw [table, if_neg (by simpa using hne)]
    dsimp only
    rw [columnWidths_eq, List.map_cons, List.map_map]
    rfl
  rw [htable]
  refine Text.fields_join (List.cons_ne_nil _ _) (List.forall_mem_cons.mpr ⟨?_, ?_⟩)
  · exact Widths.newline_notMem_row (by decide) (by decide) (by decide)
  · refine List.forall_mem_map.mpr fun t ht => ?_
    exact Widths.newline_notMem_row (hfits t ht).revision t.date.newline_notMem_display
      (hfits t ht).namesText

end Tag

/-- The tables of annotations and of tags are aligned and complete. An annotation whose lines are numbered in
their order, as those that are read are, has one row for each line; a list of tags has a row of heads and one
for each record. The columns are as wide as the longest text in them, all texts of a column begin at the same
offset, and no text is cut: of the padded texts only the blanks at the end of a row of tags are left out. -/
theorem tables_aligned :
    (∀ a : Annotation, a.lines ≠ [] → Annotation.IsNumbered a.lines → (∀ l ∈ a.lines, l.FitsLine) →
      ∃ (rows : List Text) (w : Annotation.Widths), Text.fields '\n' a.plain = rows ∧
        rows.length = a.lines.length ∧ w.Fit a.lines ∧ List.Forall₂ w.Shows a.lines rows) ∧
    ∀ tags : List Tag, tags ≠ [] → (∀ t ∈ tags, t.FitsLine) →
      ∃ (head : Text) (rows : List Text) (w : Tag.Widths),
        Text.fields '\n' (Tag.table tags) = head :: rows ∧ rows.length = tags.length ∧ w.Fit tags ∧
        w.Shows "REVISION" "DATE" "TAGS" head ∧ List.Forall₂ w.ShowsTag tags rows := by
  refine ⟨fun a hne hnumbered hfits => ?_, fun tags hne hfits => ?_⟩
  · have hfit : a.widths.Fit a.lines := Annotation.fit_widths hne hnumbered
    refine ⟨_, a.widths, Annotation.fields_plain hne hfits, List.length_map _, hfit, ?_⟩
    rw [List.forall₂_map_right_iff, List.forall₂_same]
    exact fun l hl => hfit.shows_row hl
  · have hfit : (Tag.widths tags).Fit tags := Tag.fit_widths tags
    refine ⟨_, _, Tag.widths tags, Tag.fields_table hne hfits, List.length_map _, hfit,
      hfit.shows_heads, ?_⟩
    rw [List.forall₂_map_right_iff, List.forall₂_same]
    exact fun t ht => hfit.showsTag_row ht

/-- Ten lines, so that the numbers differ in length, and two records, of which the second has no names and a
date of a clock that is not known. -/
theorem tables_aligned_of_uneven_cells :
    let lines : List Text := "ann\t1.10\t  x " :: List.replicate 9 "Ångström\t1.2\t"
    let date : Civil := ⟨2020, 2, 29, 0, 30, 0, 0⟩
    let tags : List Tag := [⟨.utc date, "1.10", ["v1", "stable"]⟩, ⟨⟨date, none⟩, "1.2", []⟩]
    (∃ (a : Annotation) (rows : List Text) (w : Annotation.Widths),
      Backend.bitkeeper.readAnnotation "f" lines = .ok a ∧ List.Forall₂ w.Shows a.lines rows ∧
      rows = " 1 1.10 ann        x ".toList :: (List.range 9).map fun i =>
        Text.padLeft 2 (Text.ofNat (i + 2)) ++ " 1.2  Ångström ") ∧
    ∃ (head : Text) (rows : List Text) (w : Tag.Widths),
      w.Shows "REVISION" "DATE" "TAGS" head ∧ List.Forall₂ w.ShowsTag tags rows ∧
      head :: rows = ["REVISION  DATE                     TAGS".toList,
        "1.10      2020-02-29 00:30:00 UTC  v1, stable".toList,
        "1.2       2020-02-29 00:30:00".toList] := by
  intro lines date tags
  have hread : Backend.bitkeeper.readAnnotation "f" lines = .ok _ := rfl
  obtain ⟨hannotations, htables⟩ := tables_aligned
  obtain ⟨rows, w, hrows, -, -, hshows⟩ := hannotations _ (List.cons_ne_nil _ _)
    (Backend.isNumbered_of_readAnnotation hread) (by decide +kernel)
  obtain ⟨head, tagRows, v, htagRows, -, -, hhead, htags⟩ :=
    htables tags (List.cons_ne_nil _ _) (by decide +kernel)
  refine ⟨⟨_, rows, w, hread, hshows, ?_⟩, head, tagRows, v, hhead, htags, ?_⟩
  · rw [← hrows]
    decide +kernel
  · rw [← htagRows]
    decide +kernel

end Annals

import Annals.Proofs.Text.Fields
import Annals.Render.Plain
import Mathlib.Data.List.Infix

/-!
# Texts in columns

A text in a column is padded with spaces up to the width of the column, so the offset at which it begins in
its row is told by the widths before it (`StandsAt.of_flushLeft`). If a row loses the blanks at its end, the
texts in it lose no more than blanks at their ends (`StandsAt.trimmed`), and nothing before another text that
is not blank (`StandsAt.trimmed_of_before`).
-/

namespace Annals

namespace Text

variable {w start : Nat} {t u cell row : Text}

/-! ## Widths -/

/-- Whether a width is the longest length among texts. -/
def IsWidest (w : Nat) (ts : List Text) : Prop :=
  (∀ t ∈ ts, t.length ≤ w) ∧ ∃ t ∈ ts, t.length = w

theorem isWidest_widest {ts : List Text} (h : ts ≠ []) : IsWidest (widest ts) ts := by
  obtain ⟨t, ts, rfl⟩ := List.exists_cons_of_ne_nil h
  have hmax : ((t :: ts).map List.length).max? = some (widest (t :: ts)) := by
    rw [widest, List.map_cons, List.max?_cons', List.foldl_cons, Nat.zero_max]
  obtain ⟨hmem, hle⟩ := List.max?_eq_some_iff.mp hmax
  exact ⟨fun u hu => hle _ (List.mem_map_of_mem hu), List.mem_map.mp hmem⟩

theorem IsWidest.le_of_mem_map {α : Type} {f : α → Text} {as : List α} {a : α}
    (h : IsWidest w (as.map f)) (ha : a ∈ as) : (f a).length ≤ w :=
  h.1 _ (List.mem_map_of_mem ha)

theorem IsWidest.le_of_mem_map_tail {α : Type} {f : α → Text} {as : List α} {a : α}
    (h : IsWidest w (t :: as.map f)) (ha : a ∈ as) : (f a).length ≤ w :=
  h.1 _ (List.mem_cons_of_mem t (List.mem_map_of_mem ha))

/-- A smaller number is not longer. -/
theorem length_ofNat_le {m n : Nat} (h : m ≤ n) : (ofNat m).length ≤ (ofNat n).length := by
  have hpos : 0 < (Nat.toDigits 10 n).length := List.length_pos_of_ne_nil Nat.toDigits_ne_nil
  have hn : n < 10 ^ (Nat.toDigits 10 n).length :=
    (Nat.length_toDigits_le_iff (by decide) hpos).mp Nat.le.refl
  exact (Nat.length_toDigits_le_iff (by decide) hpos).mpr (Nat.lt_of_le_of_lt h hn)

/-! ## Padding -/

/-- Whether a cell is a text with spaces behind it up to the width. -/
def FlushLeft (w : Nat) (t cell : Text) : Prop :=
  ∃ n, cell = t ++ List.replicate n ' ' ∧ t.length + n = w

/-- Whether a cell is a text with spaces before it up to the width. -/
def FlushRight (w : Nat) (t cell : Text) : Prop :=
  ∃ n, cell = List.replicate n ' ' ++ t ∧ n + t.length = w

theorem flushLeft_padRight (h : t.length ≤ w) : FlushLeft w t (padRight w t) :=
  ⟨w - t.length, rfl, Nat.add_sub_cancel' h⟩

theorem flushRight_padLeft (h : t.length ≤ w) : FlushRight w t (padLeft w t) :=
  ⟨w - t.length, rfl, Nat.sub_add_cancel h⟩

theorem FlushLeft.length_eq (h : FlushLeft w t cell) : cell.length = w := by
  obtain ⟨n, rfl, rfl⟩ := h
  rw [List.length_append, List.length_replicate]

theorem FlushRight.length_eq (h : FlushRight w t cell) : cell.length = w := by
  obtain ⟨n, rfl, rfl⟩ := h
  rw [List.length_append, List.length_replicate]

theorem FlushLeft.isPrefix (h : FlushLeft w t cell) : t <+: cell := by
  obtain ⟨n, rfl, -⟩ := h
  exact List.prefix_append _ _

theorem newline_notMem_spaces (n : Nat) : '\n' ∉ List.replicate n ' ' := fun h =>
  absurd (List.eq_of_mem_replicate h) (by decide)

theorem newline_notMem_padRight (h : '\n' ∉ t) : '\n' ∉ padRight w t :=
  List.not_mem_append h (newline_notMem_spaces _)

theorem newline_notMem_padLeft (h : '\n' ∉ t) : '\n' ∉ padLeft w t :=
  List.not_mem_append (newline_notMem_spaces _) h

/-! ## Blanks -/

theorem not_isBlank_of_all (h : t.all (!isBlank ·) = true) : ∀ c ∈ t, ¬isBlank c := by
  intro c hc
  rw [Bool.not_eq_true, ← Bool.not_eq_true']
  exact List.all_eq_true.mp h c hc

/-- Whether a row is a text without the blanks at its end. -/
def LosesBlanks (t row : Text) : Prop :=
  (∃ blanks, t = row ++ blanks ∧ ∀ c ∈ blanks, isBlank c) ∧ ∀ c ∈ row.getLast?, ¬isBlank c

theorem losesBlanks_trimEnd (t : Text) : LosesBlanks t (trimEnd t) := by
  refine ⟨⟨t.rtakeWhile isBlank, ?_, fun c hc => List.mem_rtakeWhile_imp hc⟩,
    fun c hc => not_of_mem_getLast?_dropEndWhile hc⟩
  rw [trimEnd, dropEndWhile_eq_rdropWhile, List.rdropWhile_append_rtakeWhile]

theorem trimEnd_isPrefix (t : Text) : trimEnd t <+: t := by
  obtain ⟨⟨blanks, ht, -⟩, -⟩ := losesBlanks_trimEnd t
  exact ⟨blanks, ht.symm⟩

/-! ## Texts in rows -/

/-- Whether a text stands in a row from an offset on. Offsets count code points. -/
def StandsAt (start : Nat) (t row : Text) : Prop := t <+: row.drop start

namespace StandsAt

/-- The text of a cell stands behind what is before the cell. -/
theorem of_flushLeft {before : Text} (h : FlushLeft w t cell) (hstart : before.length = start)
    (after : Text) : StandsAt start t (before ++ (cell ++ after)) := by
  rw [StandsAt, List.drop_left' hstart]
  exact h.isPrefix.trans (List.prefix_append cell after)

/-- Of a text in a row that is trimmed at its end, at most blanks at the end of the text are lost. -/
theorem trimmed (h : StandsAt start t row) : StandsAt start (trimEnd t) (trimEnd row) := by
  obtain ⟨⟨blanks, hrow, hblanks⟩, -⟩ := losesBlanks_trimEnd row
  obtain ⟨after, hafter⟩ := h
  have hdrop : row.drop start =
      (trimEnd row).drop start ++ blanks.drop (start - (trimEnd row).length) := by
    conv_lhs => rw [hrow]
    exact List.drop_append
  rw [hdrop] at hafter
  rcases List.append_eq_append_iff.mp hafter with ⟨lost, hkept, -⟩ | ⟨lost, ht, hlost⟩
  · exact (trimEnd_isPrefix t).trans ⟨lost, hkept.symm⟩
  · -- the trimmed row ends within the text, and what is missing of it is blank
    have hblank : ∀ c ∈ lost, isBlank c := fun c hc =>
      hblanks c (List.mem_of_mem_drop (hlost ▸ List.mem_append_left after hc))
    rw [ht, trimEnd, dropEndWhile_append _ hblank]
    exact trimEnd_isPrefix _

/-- A text is not touched if a text behind it is not blank. -/
theorem trimmed_of_before {next : Nat} (h : StandsAt start t row) (hu : StandsAt next u row)
    (hle : start + t.length ≤ next) (hsolid : ∃ c ∈ u, ¬isBlank c) :
    StandsAt start t (trimEnd row) := by
  have hne : trimEnd u ≠ [] := by
    obtain ⟨c, hc, hblank⟩ := hsolid
    exact fun hnil => hblank (dropEndWhile_eq_nil_iff.mp hnil c hc)
  have hreach : next < (trimEnd row).length := by
    have hlength := hu.trimmed.length_le
    have hpos := List.length_pos_of_ne_nil hne
    rw [List.length_drop] at hlength
    omega
  refine List.prefix_of_prefix_length_le h (List.IsPrefix.drop (trimEnd_isPrefix row) start) ?_
  rw [List.length_drop]
  omega

end StandsAt

end Text

end Annals

import Annals.History.Tag
import Annals.Proofs.Date.Stamp
import Mathlib.Data.Char
import Mathlib.Data.Int.Order.Basic
import Mathlib.Data.List.Lex
import Mathlib.Data.List.Sort
import Mathlib.Data.Prod.Lex

/-!
# The order of tag records

Tag records are ordered by instant, then revision, then names. Moments that are in UTC are the same at
the same instant, so the order tells all records of such moments apart: sorting records of which no two
are the same puts each strictly before the next (`pairwise_before_sort`), and there is one list in that
order (`eq_of_pairwise_before`).
-/

namespace Annals

/-! ## Moments in UTC -/

/-- A date that was read is not changed by converting it to UTC. -/
theorem toUtc?_of_readDate {ps : List DatePattern} {t : Text} {m : Moment} (h : readDate ps t = .ok m) :
    m.toUtc? = some m := by
  unfold readDate at h
  split at h
  · exact nomatch h
  · next read _ =>
    cases hutc : read.toUtc? with
    | none =>
      rw [hutc] at h
      exact nomatch h
    | some m' =>
      rw [hutc] at h
      obtain rfl : m' = m := Except.ok.inj h
      rw [Moment.toUtc?, (Moment.ofInstant?_eq_some hutc).2.2]
      exact hutc

/-- Moments in UTC are determined by their instants. -/
theorem Moment.eq_of_instant_eq {m n : Moment} (hm : m.toUtc? = some m) (hn : n.toUtc? = some n)
    (h : m.instant = n.instant) : m = n := by
  rw [toUtc?, h] at hm
  exact Option.some.inj (hm.symm.trans hn)

namespace Tag

/-- What records are ordered by. -/
def rank (t : Tag) : Int ×ₗ Text ×ₗ List Text := toLex (t.date.instant, toLex (t.revision, t.names))

/-- Whether a record comes before another: by instant, then revision, then names. -/
def Before (a b : Tag) : Prop :=
  a.date.instant < b.date.instant ∨ a.date.instant = b.date.instant ∧
    (a.revision < b.revision ∨ a.revision = b.revision ∧ a.names < b.names)

variable {a b : Tag} {tags : List Tag}

theorem before_iff : a.Before b ↔ a.rank < b.rank := by
  simp only [Before, rank, Prod.Lex.toLex_lt_toLex]

theorem le_iff : a.le b = true ↔ a.rank ≤ b.rank := by
  simp only [le, rank, Prod.Lex.toLex_le_toLex]
  grind

instance : Std.Irrefl Before := ⟨fun _ h => lt_irrefl _ (before_iff.1 h)⟩

instance : Std.Antisymm Before := ⟨fun _ _ h h' => absurd (before_iff.1 h') (before_iff.1 h).not_gt⟩

/-- Records in UTC of the same rank are the same. -/
theorem eq_of_rank_eq (ha : a.date.toUtc? = some a.date) (hb : b.date.toUtc? = some b.date)
    (h : a.rank = b.rank) : a = b := by
  obtain ⟨date, revision, names⟩ := a
  obtain ⟨date', revision', names'⟩ := b
  obtain ⟨hinstant, hrest⟩ := Prod.mk.inj h
  obtain ⟨rfl, rfl⟩ := Prod.mk.inj hrest
  obtain rfl := Moment.eq_of_instant_eq ha hb hinstant
  rfl

theorem mem_sort : a ∈ sort tags ↔ a ∈ tags := List.mem_mergeSort

theorem pairwise_sort (tags : List Tag) : (sort tags).Pairwise fun a b => a.rank ≤ b.rank := by
  have hsorted : (tags.mergeSort le).Pairwise fun a b => le a b = true := by
    refine List.pairwise_mergeSort (fun a b c h h' => ?_) (fun a b => ?_) tags
    · exact le_iff.2 ((le_iff.1 h).trans (le_iff.1 h'))
    · rw [Bool.or_eq_true, le_iff, le_iff]
      exact le_total a.rank b.rank
  exact hsorted.imp fun h => le_iff.1 h

/-- Sorting puts each record strictly before the next, if all are in UTC and no two are the same. -/
theorem pairwise_before_sort (hnodup : tags.Nodup)
    (hutc : ∀ tag ∈ tags, tag.date.toUtc? = some tag.date) : (sort tags).Pairwise Before := by
  have hsort : (sort tags).Nodup := (List.mergeSort_perm tags le).nodup_iff.2 hnodup
  refine List.Pairwise.imp_of_mem ?_ ((pairwise_sort tags).and hsort)
  rintro a b ha hb ⟨hle, hne⟩
  refine before_iff.2 (lt_of_le_of_ne hle fun hrank => hne ?_)
  exact eq_of_rank_eq (hutc a (mem_sort.1 ha)) (hutc b (mem_sort.1 hb)) hrank

/-- There is one list of the same records with each strictly before the next. -/
theorem eq_of_pairwise_before {tags' : List Tag} (h : tags.Pairwise Before) (h' : tags'.Pairwise Before)
    (hmem : ∀ tag, tag ∈ tags ↔ tag ∈ tags') : tags = tags' :=
  h.eq_of_mem_iff h' hmem

end Tag

end Annals

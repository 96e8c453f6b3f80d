import Annals.Text.Basic
import Mathlib.Data.List.Basic

/-!
# The order of texts

Texts are ordered by code point. The order is total, so texts can be put in order in one way only
(`pairwise_mergeSort`, `eq_of_perm`).
-/

namespace Annals.Text

theorem le_iff {a b : Text} : le a b = true ↔ ¬b < a := by
  rw [le, Bool.not_eq_true', decide_eq_false_iff_not]

theorem lt_of_not_lt_of_ne {a b : Text} (h : ¬b < a) (hne : a ≠ b) : a < b := by
  by_contra hlt
  exact hne (List.le_antisymm h hlt)

theorem le_trans {a b c : Text} (h : le a b = true) (h' : le b c = true) : le a c = true :=
  le_iff.mpr (List.le_trans (le_iff.mp h) (le_iff.mp h'))

theorem le_total (a b : Text) : (le a b || le b a) = true := by
  rw [Bool.or_eq_true, le_iff, le_iff]
  exact List.le_total a b

theorem pairwise_mergeSort (ts : List Text) : (ts.mergeSort le).Pairwise (le · ·) := by
  refine List.pairwise_mergeSort (fun a b c h h' => ?_) (fun a b => ?_) ts
  · exact le_trans h h'
  · exact le_total a b

/-- Texts in order are determined by how often each is there. -/
theorem eq_of_perm {ts us : List Text} (ht : ts.Pairwise (le · ·)) (hu : us.Pairwise (le · ·))
    (h : ts.Perm us) : ts = us :=
  h.eq_of_pairwise (fun _ _ _ _ h h' => List.le_antisymm (le_iff.mp h) (le_iff.mp h')) ht hu

end Annals.Text

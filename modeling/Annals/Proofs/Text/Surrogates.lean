import Mathlib.Data.List.Chain
import Annals.Proofs.Text.Utf8
import Annals.Text.Raw

/-!
# Surrogates

Two surrogates, a high one and a low one behind it, stand for one code point beyond the basic plane. A raw
text may hold such a pair and the code point itself, and in some writings of it the two cannot be told
apart. `RawText.joined` has the code points instead of the pairs. It is the text itself exactly if that
holds no pair (`joined_eq_self_iff`), as no text of characters does (`joined_raw`).
-/

namespace Annals

namespace CodePoint

def isHigh (c : CodePoint) : Bool := 0xD800 ≤ c.val && c.val < 0xDC00

def isLow (c : CodePoint) : Bool := 0xDC00 ≤ c.val && c.val < 0xE000

/-- The code point that two surrogates stand for. -/
def pair (hi lo : CodePoint) : CodePoint :=
  ofNat (0x10000 + (hi.val - 0xD800) * 0x400 + (lo.val - 0xDC00))

variable {c hi lo : CodePoint}

theorem isHigh_iff : c.isHigh = true ↔ 0xD800 ≤ c.val ∧ c.val < 0xDC00 := by
  rw [isHigh, Bool.and_eq_true, decide_eq_true_iff, decide_eq_true_iff]

theorem isLow_iff : c.isLow = true ↔ 0xDC00 ≤ c.val ∧ c.val < 0xE000 := by
  rw [isLow, Bool.and_eq_true, decide_eq_true_iff, decide_eq_true_iff]

theorem val_pair (hhi : hi.isHigh = true) (hlo : lo.isLow = true) :
    (pair hi lo).val = 0x10000 + (hi.val - 0xD800) * 0x400 + (lo.val - 0xDC00) := by
  rw [isHigh_iff] at hhi
  rw [isLow_iff] at hlo
  exact Nat.mod_eq_of_lt (by omega)

/-- Two surrogates stand for no surrogate. -/
theorem not_isSurrogate_pair (hhi : hi.isHigh = true) (hlo : lo.isLow = true) :
    (pair hi lo).isHigh = false ∧ (pair hi lo).isLow = false := by
  have hval := val_pair hhi hlo
  refine ⟨?_, ?_⟩
  · rw [← Bool.not_eq_true, isHigh_iff]
    omega
  · rw [← Bool.not_eq_true, isLow_iff]
    omega

theorem val_ofChar (c : Char) : (ofChar c).val = c.toNat := by
  have hbounds := Utf8.toNat_bounds c
  exact Nat.mod_eq_of_lt (by omega)

theorem isHigh_ofChar (c : Char) : (ofChar c).isHigh = false := by
  have hbounds := Utf8.toNat_bounds c
  rw [← Bool.not_eq_true, isHigh_iff, val_ofChar]
  omega

theorem ofChar_injective : Function.Injective ofChar := by
  intro a b h
  have hval := congrArg Fin.val h
  rw [val_ofChar, val_ofChar] at hval
  exact Char.toNat_inj.mp hval

end CodePoint

namespace RawText

open CodePoint

/-- The text with one code point instead of two surrogates wherever they stand for it. -/
def joined : RawText → RawText
  | [] => []
  | [c] => [c]
  | c :: d :: t => if c.isHigh && d.isLow then pair c d :: joined t else c :: joined (d :: t)

/-- Whether no low surrogate stands right behind a high one. -/
def Unpaired (t : RawText) : Prop := t.IsChain fun c d => ¬(c.isHigh = true ∧ d.isLow = true)

theorem length_joined_le (t : RawText) : (joined t).length ≤ t.length := by
  fun_induction joined t with
  | case1 => exact Nat.le_refl _
  | case2 => exact Nat.le_refl _
  | case3 c d t hpair ih =>
    simp only [List.length_cons]
    omega
  | case4 c d t hpair ih => exact Nat.succ_le_succ ih

/-- Joining surrogates makes no new pair. -/
theorem unpaired_joined (t : RawText) : (joined t).Unpaired := by
  have hhead (d : CodePoint) (t : RawText) :
      ∀ e ∈ (joined (d :: t)).head?, e.isLow = true → d.isLow = true := by
    intro e he hlow
    cases t with
    | nil => rwa [← Option.some.inj he] at hlow
    | cons e' t =>
      unfold joined at he
      split at he
      · next hpair =>
        obtain ⟨hd, he'⟩ := (Bool.and_eq_true _ _).mp hpair
        rw [← Option.some.inj he, (not_isSurrogate_pair hd he').2] at hlow
        contradiction
      · rwa [← Option.some.inj he] at hlow
  fun_induction joined t with
  | case1 => exact List.isChain_nil
  | case2 c => exact List.isChain_singleton c
  | case3 c d t hpair ih =>
    obtain ⟨hc, hd⟩ := (Bool.and_eq_true _ _).mp hpair
    refine List.isChain_cons.mpr ⟨fun e _ hboth => ?_, ih⟩
    rw [(not_isSurrogate_pair hc hd).1] at hboth
    exact nomatch hboth.1
  | case4 c d t hpair ih =>
    refine List.isChain_cons.mpr ⟨fun e he hboth => hpair ?_, ih⟩
    rw [hboth.1, hhead d t e he hboth.2]
    rfl

theorem joined_eq_self_iff {t : RawText} : joined t = t ↔ t.Unpaired := by
  refine ⟨fun h => h ▸ unpaired_joined t, fun h => ?_⟩
  fun_induction joined t with
  | case1 => rfl
  | case2 => rfl
  | case3 c d t hpair ih => exact absurd ((Bool.and_eq_true _ _).mp hpair) (List.isChain_cons_cons.mp h).1
  | case4 c d t hpair ih => rw [ih (List.isChain_cons_cons.mp h).2]

/-- A text of characters holds no surrogate. -/
theorem joined_raw (t : Text) : joined t.raw = t.raw := by
  rw [joined_eq_self_iff]
  induction t with
  | nil => exact List.isChain_nil
  | cons c t ih =>
    refine List.isChain_cons.mpr ⟨fun e _ hboth => ?_, ih⟩
    rw [isHigh_ofChar] at hboth
    exact nomatch hboth.1

theorem raw_injective : Function.Injective Text.raw := List.map_injective_iff.mpr ofChar_injective

end RawText

end Annals

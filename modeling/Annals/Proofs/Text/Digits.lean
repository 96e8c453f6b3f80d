import Annals.Text.Blank
import Annals.Text.Digit
import Mathlib.Algebra.Group.Nat.Defs

/-!
# Digits of written numbers

A number that is written with a fixed number of digits ends in its last digit, behind the digits of its
tenth (`ofNatPadded_succ`); each digit is read as its value (`digitValue?_digitChar`) and none is blank
(`not_isBlank_of_mem_ofNatPadded`). The digits give the number back (`ofDigitChars_ofNatPadded`).
-/

namespace Annals

theorem digitValue?_digitChar {d : Nat} (h : d < 10) : digitValue? (Nat.digitChar d) = some d := by
  have hd : (Nat.digitChar d).toNat = 48 + d := Nat.toNat_digitChar_of_lt_ten h
  rw [digitValue?, hd, if_pos (by omega), if_pos (by simp; omega), Nat.add_sub_cancel_left]

theorem digitChar_ne_zero {d : Nat} (h : d < 10) (hd : d ≠ 0) : Nat.digitChar d ≠ '0' := by
  intro heq
  have hvalue := Nat.toNat_digitChar_of_lt_ten h
  rw [heq] at hvalue
  exact hd (Nat.add_left_cancel hvalue).symm

/-- The digits of a number begin with zero only if it is zero. -/
theorem head?_toDigits {n : Nat} (h : n ≠ 0) : (Nat.toDigits 10 n).head? ≠ some '0' := by
  induction n using Nat.strongRecOn with
  | ind n ih =>
    rcases Nat.lt_or_ge n 10 with hn | hn
    · rw [Nat.toDigits_of_lt_base hn]
      exact fun heq => digitChar_ne_zero hn h (Option.some.inj heq)
    · have htenth : (Nat.toDigits 10 (n / 10)).head? ≠ some '0' := ih _ (by omega) (by omega)
      obtain ⟨d, ds, hcons⟩ := List.exists_cons_of_ne_nil
        (Nat.toDigits_ne_nil (n := n / 10) (b := 10))
      rw [Nat.toDigits_of_base_le (by decide) hn, hcons]
      rwa [hcons] at htenth

theorem digitChar_le_digitChar {a b : Nat} (ha : a < 10) (hb : b < 10) :
    Nat.digitChar a ≤ Nat.digitChar b ↔ a ≤ b := by
  change (Nat.digitChar a).toNat ≤ (Nat.digitChar b).toNat ↔ _
  rw [Nat.toNat_digitChar_of_lt_ten ha, Nat.toNat_digitChar_of_lt_ten hb]
  omega

theorem not_isBlank_of_isDigit {c : Char} (h : c.isDigit = true) : ¬isBlank c := by
  simp only [Char.isDigit, Bool.and_eq_true, decide_eq_true_eq, ge_iff_le, UInt32.le_iff_toNat_le] at h
  have hlow : 48 ≤ c.toNat := h.1
  have hhigh : c.toNat ≤ 57 := h.2
  simp [isBlank]
  omega

namespace Text

theorem isDigit_of_mem_ofNatPadded {c : Char} {w n : Nat} (h : c ∈ ofNatPadded w n) :
    c.isDigit = true := by
  rcases List.mem_append.1 h with hzero | hdigit
  · rw [List.eq_of_mem_replicate hzero]
    rfl
  · exact Nat.isDigit_of_mem_toDigits (by decide) (by decide) hdigit

theorem not_isBlank_of_mem_ofNatPadded {c : Char} {w n : Nat} (h : c ∈ ofNatPadded w n) :
    ¬isBlank c :=
  not_isBlank_of_isDigit (isDigit_of_mem_ofNatPadded h)

/-- In any base, the last digit of a padded number stands behind the padded number without it. -/
theorem padded_succ {b : Nat} (hb : 1 < b) (w n : Nat) (hw : 0 < w) :
    List.replicate (w + 1 - (Nat.toDigits b n).length) '0' ++ Nat.toDigits b n =
      List.replicate (w - (Nat.toDigits b (n / b)).length) '0' ++ Nat.toDigits b (n / b) ++
        [Nat.digitChar (n % b)] := by
  rcases Nat.lt_or_ge n b with hn | hn
  · rw [Nat.toDigits_of_lt_base hn, Nat.div_eq_of_lt hn, Nat.toDigits_zero, Nat.mod_eq_of_lt hn]
    obtain ⟨w, rfl⟩ := Nat.exists_eq_succ_of_ne_zero (Nat.ne_of_gt hw)
    simp [List.replicate_succ']
  · rw [Nat.toDigits_of_base_le hb hn, List.length_append, List.length_singleton,
      Nat.add_sub_add_right, List.append_assoc]

theorem ofNatPadded_succ (w n : Nat) (hw : 0 < w) :
    ofNatPadded (w + 1) n = ofNatPadded w (n / 10) ++ [Nat.digitChar (n % 10)] :=
  padded_succ (by decide) w n hw

theorem ofNatPadded_one {n : Nat} (h : n < 10) : ofNatPadded 1 n = [Nat.digitChar n] := by
  simp only [ofNatPadded, ofNat, Nat.toDigits_of_lt_base h]
  rfl

theorem ofNatPadded_two {n : Nat} (h : n < 100) :
    ofNatPadded 2 n = [Nat.digitChar (n / 10), Nat.digitChar (n % 10)] := by
  rw [ofNatPadded_succ 1 n (by decide), ofNatPadded_one (by omega)]
  rfl

theorem length_ofNatPadded {w n : Nat} (hw : 0 < w) (h : n < 10 ^ w) : (ofNatPadded w n).length = w := by
  have hle : (Nat.toDigits 10 n).length ≤ w := (Nat.length_toDigits_le_iff (by decide) hw).2 h
  rw [ofNatPadded, ofNat, List.length_append, List.length_replicate, Nat.sub_add_cancel hle]

/-- A padded number is had back from its digits. -/
theorem ofDigitChars_ofNatPadded (w n : Nat) : Nat.ofDigitChars 10 (ofNatPadded w n) 0 = n := by
  rw [ofNatPadded, ofNat, Nat.ofDigitChars_append, Nat.ofDigitChars_replicate_zero, Nat.mul_zero,
    Nat.ofDigitChars_ten_toDigits]

/-- A number of at most four hexadecimal digits, digit by digit. -/
theorem hex_four {n : Nat} (h : n < 0x10000) :
    hex 4 n =
      [Nat.digitChar (n / 0x1000), Nat.digitChar (n / 0x100 % 0x10), Nat.digitChar (n / 0x10 % 0x10),
        Nat.digitChar (n % 0x10)] := by
  have hsucc (w m : Nat) (hw : 0 < w) : hex (w + 1) m = hex w (m / 16) ++ [Nat.digitChar (m % 16)] :=
    padded_succ (by decide) w m hw
  have hone : hex 1 (n / 16 / 16 / 16) = [Nat.digitChar (n / 16 / 16 / 16)] := by
    simp only [hex, Nat.toDigits_of_lt_base (show n / 16 / 16 / 16 < 16 by omega)]
    rfl
  rw [hsucc 3 n (by decide), hsucc 2 _ (by decide), hsucc 1 _ (by decide), hone]
  simp only [Nat.div_div_eq_div_mul, List.cons_append, List.nil_append]

end Text

end Annals

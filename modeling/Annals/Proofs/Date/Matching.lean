import Annals.Date.Pattern
import Annals.Proofs.Text.Digits
import Mathlib.Algebra.Group.Nat.Defs

/-!
# The first way to match

A pattern is matched in the first way that its items can be read, so a proof that a text is matched
follows, item by item, the first alternative that reads it: `First` says what that alternative gives and
leaves, `Fails` that an alternative before it does not read at all. Every item of a date reads its field
first as it is written with all its digits.
-/

namespace Annals

namespace Matcher

variable {α β : Type} {p q : Matcher α} {f : α → Matcher β} {t t' rest : Text} {a : α} {b : β}

/-- The first way to read `t` gives `a` and leaves `rest`. -/
def First (p : Matcher α) (t : Text) (a : α) (rest : Text) : Prop := (p t).head? = some (a, rest)

/-- There is no way to read `t`. -/
def Fails (p : Matcher α) (t : Text) : Prop := p t = []

/-! ## Combined matchers -/

theorem First.map {γ : Type} (g : α → γ) (h : First p t a rest) :
    First (Matcher.map g p) t (g a) rest := by
  simp only [First, Matcher.map, List.head?_map] at *
  rw [h, Option.map_some]

theorem First.andThen (hp : First p t a t') (hf : First (f a) t' b rest) :
    First (p.andThen f) t b rest := by
  obtain ⟨others, hp⟩ := List.head?_eq_some_iff.1 hp
  obtain ⟨others', hf⟩ := List.head?_eq_some_iff.1 hf
  rw [First, Matcher.andThen, hp, List.flatMap_cons]
  simp only [hf, List.cons_append, List.head?_cons]

theorem First.orElse (hp : First p t a rest) : First (p.orElse q) t a rest := by
  obtain ⟨others, hp⟩ := List.head?_eq_some_iff.1 hp
  rw [First, Matcher.orElse, hp]
  rfl

theorem Fails.orElse (hp : Fails p t) (hq : First q t a rest) : First (p.orElse q) t a rest := by
  rw [First, Matcher.orElse, hp]
  exact hq

theorem Fails.orElse_fails (hp : Fails p t) (hq : Fails q t) : Fails (p.orElse q) t := by
  rw [Fails, Matcher.orElse, hp, hq]
  rfl

theorem Fails.map {γ : Type} (g : α → γ) (hp : Fails p t) : Fails (Matcher.map g p) t := by
  rw [Fails, Matcher.map, hp]
  rfl

theorem Fails.andThen (hp : Fails p t) : Fails (p.andThen f) t := by
  rw [Fails, Matcher.andThen, hp]
  rfl

theorem first_pair {tens ones : Matcher Nat} {m n : Nat} (ht : First tens t m t')
    (ho : First ones t' n rest) : First (pair tens ones) t (10 * m + n) rest :=
  ht.andThen (ho.map _)

/-! ## Single characters -/

theorem first_one {g : Char → Option α} {c : Char} (cs : Text) (h : g c = some a) :
    First (one g) (c :: cs) a cs := by
  simp [First, one, h]

theorem fails_one {g : Char → Option α} {c : Char} (cs : Text) (h : g c = none) :
    Fails (one g) (c :: cs) := by
  simp [Fails, one, h]

theorem first_char (c : Char) (cs : Text) : First (char c) (c :: cs) () cs :=
  first_one cs (if_pos rfl)

theorem fails_char {c d : Char} (cs : Text) (h : d ≠ c) : Fails (char c) (d :: cs) :=
  fails_one cs (if_neg h)

theorem first_digit {d : Nat} (cs : Text) (h : d < 10) :
    First digit (Nat.digitChar d :: cs) d cs :=
  first_one cs (digitValue?_digitChar h)

theorem first_digitIn (low high : Nat) {d : Nat} (cs : Text) (hhigh : high < 10) (hl : low ≤ d)
    (hh : d ≤ high) :
    First (digitIn (Nat.digitChar low) (Nat.digitChar high)) (Nat.digitChar d :: cs) d cs := by
  refine first_one cs ?_
  rw [if_pos ⟨(digitChar_le_digitChar (by omega) (by omega)).2 hl,
    (digitChar_le_digitChar (by omega) hhigh).2 hh⟩, Nat.toNat_digitChar_of_lt_ten (by omega)]
  exact congrArg some (Nat.add_sub_cancel_left ..)

theorem fails_digitIn (low high : Nat) {d : Nat} (cs : Text) (hlow : low < 10) (hhigh : high < 10)
    (hd : d < 10) (h : d < low ∨ high < d) :
    Fails (digitIn (Nat.digitChar low) (Nat.digitChar high)) (Nat.digitChar d :: cs) := by
  refine fails_one cs (if_neg ?_)
  rw [digitChar_le_digitChar hlow hd, digitChar_le_digitChar hd hhigh]
  omega

theorem fails_char_digit (c : Nat) {d : Nat} (cs : Text) (hc : c < 10) (hd : d < 10) (h : d ≠ c) :
    Fails (char (Nat.digitChar c)) (Nat.digitChar d :: cs) := by
  refine fails_char cs fun heq => h ?_
  have hd' := Nat.toNat_digitChar_of_lt_ten hd
  rw [heq, Nat.toNat_digitChar_of_lt_ten hc] at hd'
  omega

theorem first_blanks {c : Char} (cs : Text) (hc : ¬isBlank c) :
    First blanks (' ' :: c :: cs) () (c :: cs) := by
  simp [First, blanks, blanksAfter, show isBlank ' ' = true by decide, hc]

/-- A number that is written with as many digits as are read. -/
theorem first_digits (w : Nat) {n : Nat} (rest : Text) (hw : 0 < w) (hn : n < 10 ^ w) :
    First (digits w) (Text.ofNatPadded w n ++ rest) n rest := by
  induction w generalizing n rest with
  | zero => exact absurd hw (Nat.lt_irrefl 0)
  | succ w ih =>
    have hlast : ∀ k, First (digit.map fun d => 10 * k + d) (Nat.digitChar (n % 10) :: rest)
        (10 * k + n % 10) rest :=
      fun k => (first_digit rest (by omega)).map _
    have hvalue : 10 * (n / 10) + n % 10 = n := by omega
    rcases Nat.eq_zero_or_pos w with rfl | hpos
    · have hten : n / 10 = 0 := by omega
      have hmod : n % 10 = n := by omega
      rw [Text.ofNatPadded_one (by omega)]
      have hone := hlast 0
      rw [hmod, Nat.mul_zero, Nat.zero_add] at hone
      exact First.andThen (show First (digits 0) _ 0 _ from rfl) (by simpa using hone)
    · have hprev : n / 10 < 10 ^ w := by
        rw [Nat.pow_succ] at hn
        omega
      rw [Text.ofNatPadded_succ w n hpos, List.append_assoc, List.singleton_append]
      refine First.andThen (ih _ hpos hprev) ?_
      have hnext := hlast (n / 10)
      rwa [hvalue] at hnext

end Matcher

namespace DateItem

open Matcher

/-! ## Items of a date

A number of two digits is its tens and its ones. Which alternative reads it is decided by its tens.
-/

theorem first_year {y : Nat} (rest : Text) (h : y < 10000) :
    First year.matcher (Text.ofNatPadded 4 y ++ rest) (fun f => { f with year := y }) rest := by
  unfold matcher
  exact (first_digits 4 rest (by decide) (by simpa using h)).map _

theorem first_literal (c : Char) (rest : Text) :
    First (literal c).matcher (c :: rest) (fun f => f) rest := by
  unfold matcher
  exact (first_one (a := ()) rest (if_pos (agreeButForCase_self c))).map _

theorem first_month {m : Nat} (rest : Text) (hlow : 1 ≤ m) (hhigh : m ≤ 12) :
    First month.matcher (Text.ofNatPadded 2 m ++ rest) (fun f => { f with month := m }) rest := by
  rw [Text.ofNatPadded_two (by omega)]
  unfold matcher
  refine First.map (a := m) _ ?_
  rcases Nat.lt_or_ge m 10 with h | h
  · have htens : m / 10 = 0 := by omega
    have hones : m % 10 = m := by omega
    rw [htens, hones]
    refine First.orElse (Fails.orElse ?_ ?_)
    · exact (fails_char_digit 1 _ (by decide) (by decide) (by decide)).andThen
    · exact (first_char '0' _).andThen (first_digitIn 1 9 rest (by decide) hlow (by omega))
  · have htens : m / 10 = 1 := by omega
    have hvalue : 10 + m % 10 = m := by omega
    rw [htens]
    have hones := (first_digitIn 0 2 rest (by decide) (Nat.zero_le (m % 10)) (by omega)).map (10 + ·)
    rw [hvalue] at hones
    exact ((first_char '1' _).andThen hones).orElse.orElse

theorem first_day {d : Nat} (rest : Text) (hlow : 1 ≤ d) (hhigh : d ≤ 31) :
    First day.matcher (Text.ofNatPadded 2 d ++ rest) (fun f => { f with day := d }) rest := by
  rw [Text.ofNatPadded_two (by omega)]
  unfold matcher
  refine First.map (a := d) _ ?_
  have hthirty (h : d / 10 ≠ 3) (t : Text) :
      Fails ((char '3').andThen fun _ => (digitIn '0' '1').map (30 + ·))
        (Nat.digitChar (d / 10) :: t) :=
    (fails_char_digit 3 t (by decide) (by omega) h).andThen
  rcases Nat.lt_or_ge d 10 with h | h
  · have htens : d / 10 = 0 := by omega
    have hones : d % 10 = d := by omega
    -- the alternatives for 30 and 31 and for the tens come first
    have hpair : Fails (pair (digitIn '1' '2') digit) (Nat.digitChar (d / 10) :: _) :=
      (fails_digitIn 1 2 (Nat.digitChar (d % 10) :: rest) (by decide) (by decide) (by omega)
        (Or.inl (by omega))).andThen
    refine First.orElse (First.orElse (Fails.orElse ((hthirty (by omega) _).orElse_fails hpair) ?_))
    rw [htens, hones]
    exact (first_char '0' _).andThen (first_digitIn 1 9 rest (by decide) hlow (by omega))
  rcases Nat.lt_or_ge d 30 with h' | h'
  · have hvalue : 10 * (d / 10) + d % 10 = d := by omega
    have hpair := first_pair (first_digitIn 1 2 (Nat.digitChar (d % 10) :: rest) (by decide)
      (show 1 ≤ d / 10 by omega) (show d / 10 ≤ 2 by omega)) (first_digit rest (by omega))
    rw [hvalue] at hpair
    exact ((hthirty (by omega) _).orElse hpair).orElse.orElse.orElse
  · have htens : d / 10 = 3 := by omega
    have hvalue : 30 + d % 10 = d := by omega
    rw [htens]
    have hones := (first_digitIn 0 1 rest (by decide) (Nat.zero_le (d % 10)) (by omega)).map (30 + ·)
    rw [hvalue] at hones
    exact ((first_char '3' _).andThen hones).orElse.orElse.orElse.orElse

theorem first_hour {h : Nat} (rest : Text) (hhigh : h < 24) :
    First hour.matcher (Text.ofNatPadded 2 h ++ rest) (fun f => { f with hour := h }) rest := by
  rw [Text.ofNatPadded_two (by omega)]
  unfold matcher
  refine First.map (a := h) _ (First.orElse ?_)
  rcases Nat.lt_or_ge h 20 with hlt | hge
  · have hvalue : 10 * (h / 10) + h % 10 = h := by omega
    have hpair := first_pair (first_digitIn 0 1 (Nat.digitChar (h % 10) :: rest) (by decide)
      (Nat.zero_le (h / 10)) (by omega)) (first_digit rest (by omega))
    rw [hvalue] at hpair
    exact (fails_char_digit 2 _ (by decide) (by omega) (by omega)).andThen.orElse hpair
  · have htens : h / 10 = 2 := by omega
    have hvalue : 20 + h % 10 = h := by omega
    rw [htens]
    have hones := (first_digitIn 0 3 rest (by decide) (Nat.zero_le (h % 10)) (by omega)).map (20 + ·)
    rw [hvalue] at hones
    exact ((first_char '2' _).andThen hones).orElse

/-- Minutes and seconds, in hours as in offsets, are read as two digits of which the first is small. -/
theorem first_sixty {n : Nat} (rest : Text) (h : n < 60) :
    First (pair (digitIn '0' '5') digit) (Text.ofNatPadded 2 n ++ rest) n rest := by
  have hvalue : 10 * (n / 10) + n % 10 = n := by omega
  have hpair := first_pair (first_digitIn 0 5 (Nat.digitChar (n % 10) :: rest) (by decide)
    (Nat.zero_le (n / 10)) (by omega)) (first_digit rest (by omega))
  rw [hvalue] at hpair
  rw [Text.ofNatPadded_two (by omega)]
  exact hpair

theorem first_minute {m : Nat} (rest : Text) (h : m < 60) :
    First minute.matcher (Text.ofNatPadded 2 m ++ rest) (fun f => { f with minute := m }) rest := by
  unfold matcher
  exact (first_sixty rest h).orElse.map _

theorem first_second {s : Nat} (rest : Text) (h : s < 60) :
    First second.matcher (Text.ofNatPadded 2 s ++ rest) (fun f => { f with second := s }) rest := by
  have hsixty : Fails ((char '6').andThen fun _ => (digitIn '0' '1').map (60 + ·))
      (Text.ofNatPadded 2 s ++ rest) := by
    rw [Text.ofNatPadded_two (by omega)]
    exact (fails_char_digit 6 _ (by decide) (by omega) (by omega)).andThen
  unfold matcher
  exact (hsixty.orElse (first_sixty rest h)).orElse.map _

end DateItem

namespace Zone

open Matcher

/-! ## Offsets -/

/-- The sign of an offset, as it is written. -/
def sign (negative : Bool) : Char := if negative then '-' else '+'

/-- The colon of an offset, where it is written with one. -/
def colonText (colon : Bool) : Text := if colon then [':'] else []

theorem first_sign (negative : Bool) (rest : Text) :
    First (((char '+').map fun _ => false).orElse ((char '-').map fun _ => true))
      (sign negative :: rest) negative rest := by
  cases negative with
  | false => exact ((first_char '+' rest).map _).orElse
  | true =>
    have hplus : Fails ((char '+').map fun _ => false) ('-' :: rest) :=
      (fails_char rest (by decide)).map _
    exact hplus.orElse ((first_char '-' rest).map _)

theorem first_colon (colon : Bool) {d : Nat} (rest : Text) (h : d < 10) :
    First (option ':') (colonText colon ++ Nat.digitChar d :: rest) colon
      (Nat.digitChar d :: rest) := by
  cases colon with
  | true => exact ((first_char ':' _).map _).orElse
  | false =>
    have hd := Nat.toNat_digitChar_of_lt_ten h
    have hne : Nat.digitChar d ≠ ':' := by
      intro heq
      rw [heq] at hd
      change 58 = 48 + d at hd
      omega
    exact ((fails_char rest hne).map _).orElse rfl

theorem first_short (negative colon : Bool) {h m : Nat} (hh : h < 100) (hm : m < 60) :
    First Zone.matcher
      (sign negative :: (Text.ofNatPadded 2 h ++ (colonText colon ++ Text.ofNatPadded 2 m)))
      (.short negative h m colon) [] := by
  have hhours : First (pair digit digit)
      (Text.ofNatPadded 2 h ++ (colonText colon ++ Text.ofNatPadded 2 m)) h
      (colonText colon ++ Text.ofNatPadded 2 m) := by
    have hpair := first_pair (first_digit (Nat.digitChar (h % 10) ::
      (colonText colon ++ Text.ofNatPadded 2 m)) (show h / 10 < 10 by omega))
      (first_digit _ (by omega))
    rw [show 10 * (h / 10) + h % 10 = h by omega] at hpair
    rw [Text.ofNatPadded_two hh]
    exact hpair
  have hcolon : First (option ':') (colonText colon ++ Text.ofNatPadded 2 m) colon
      (Text.ofNatPadded 2 m) := by
    rw [Text.ofNatPadded_two (by omega)]
    exact first_colon colon _ (by omega)
  have hminutes : First (pair (digitIn '0' '5') digit) (Text.ofNatPadded 2 m) m [] := by
    simpa using DateItem.first_sixty [] hm
  refine First.orElse ((first_sign negative _).andThen (hhours.andThen (hcolon.andThen
    (hminutes.andThen ?_))))
  -- no seconds can follow, since the text is used up
  exact Fails.orElse rfl rfl

theorem first_zulu (rest : Text) : First Zone.matcher ('Z' :: rest) .zulu rest := by
  have hsign : Fails (((char '+').map fun _ => false).orElse ((char '-').map fun _ => true))
      ('Z' :: rest) :=
    ((fails_char rest (by decide)).map _).orElse_fails ((fails_char rest (by decide)).map _)
  exact hsign.andThen.orElse ((first_char 'Z' rest).map _)

end Zone

namespace DateItem

open Matcher

theorem first_zone {t : Text} {z : Zone} {rest : Text} (h : First Zone.matcher t z rest) :
    First zone.matcher t (fun f => { f with zone? := some z }) rest := by
  unfold matcher
  exact h.map _

theorem first_blanks {c : Char} (cs : Text) (hc : ¬isBlank c) :
    First blanks.matcher (' ' :: c :: cs) (fun f => f) (c :: cs) := by
  unfold matcher
  exact (Matcher.first_blanks cs hc).map _

end DateItem

namespace DatePattern

/-- A pattern matches if its first item first reads something and the other items match the rest. -/
theorem firstMatch?_cons {item : DateItem} {items : DatePattern} {set : DateFields → DateFields}
    {t rest : Text} {f : DateFields} {r : DateFields × Text}
    (hitem : Matcher.First item.matcher t set rest)
    (hitems : firstMatch? items (set f) rest = some r) :
    firstMatch? (item :: items) f t = some r := by
  obtain ⟨others, hitem⟩ := List.head?_eq_some_iff.1 hitem
  simp only [firstMatch?, hitem, List.findSome?_cons, hitems]

end DatePattern

end Annals

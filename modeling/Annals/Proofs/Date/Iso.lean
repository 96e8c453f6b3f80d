import Annals.Proofs.Date.Stamp

/-!
# The written form of a moment

The form that keeps every field can be read back: `ofIso?_iso` says so of the moments in UTC, whether
they have a fraction of a second or not.
-/

namespace Annals

/-- The number that the first `w` characters write in digits, and the text after it. -/
def readPadded? (w : Nat) (t : Text) : Option (Nat × Text) :=
  let digits := t.take w
  if digits.length = w ∧ digits.all Char.isDigit then some (Nat.ofDigitChars 10 digits 0, t.drop w)
  else none

theorem readPadded?_ofNatPadded {w n : Nat} (hw : 0 < w) (h : n < 10 ^ w) (t : Text) :
    readPadded? w (Text.ofNatPadded w n ++ t) = some (n, t) := by
  have hlength : (Text.ofNatPadded w n).length = w := Text.length_ofNatPadded hw h
  have htake : (Text.ofNatPadded w n ++ t).take w = Text.ofNatPadded w n := List.take_left' hlength
  have hdrop : (Text.ofNatPadded w n ++ t).drop w = t := List.drop_left' hlength
  have hdigits : (Text.ofNatPadded w n).all Char.isDigit = true :=
    List.all_eq_true.2 fun _ => Text.isDigit_of_mem_ofNatPadded
  rw [readPadded?, htake, hdrop]
  simp only [hlength, hdigits, Text.ofDigitChars_ofNatPadded, and_self, if_true]

namespace Moment

/-- Whether a moment is a valid civil time on a clock in UTC. -/
def IsUtc (m : Moment) : Prop := m.offset? = some 0 ∧ m.civil.isValid = true

instance (m : Moment) : Decidable m.IsUtc := inferInstanceAs (Decidable (_ ∧ _))

/-- How an offset of zero is written. -/
def utcText : Text := ['+', '0', '0', ':', '0', '0']

/-- The microseconds that a text writes as a fraction of a second, if it has one, and the text after
it. -/
def readFraction? (t : Text) : Option (Nat × Text) :=
  match Text.after? ['.'] t with
  | some t => readPadded? 6 t
  | none => some (0, t)

/-- How a fraction of a second is written: not at all if it is nothing. -/
def fractionText (micro : Nat) : Text := if micro = 0 then [] else '.' :: Text.ofNatPadded 6 micro

theorem readFraction?_fractionText {micro : Nat} (h : micro < 1000000) :
    readFraction? (fractionText micro ++ utcText) = some (micro, utcText) := by
  by_cases hzero : micro = 0
  · subst hzero
    rfl
  · have hafter : Text.after? ['.'] ('.' :: (Text.ofNatPadded 6 micro ++ utcText)) =
        some (Text.ofNatPadded 6 micro ++ utcText) := Text.after?_eq_some_iff.2 rfl
    rw [fractionText, if_neg hzero, List.cons_append, readFraction?, hafter]
    exact readPadded?_ofNatPadded (by decide) h utcText

/-- The moment in UTC that a text writes in the form that keeps every field. -/
def ofIso? (t : Text) : Option Moment := do
  let (year, t) ← readPadded? 4 t
  let (month, t) ← readPadded? 2 (← Text.after? ['-'] t)
  let (day, t) ← readPadded? 2 (← Text.after? ['-'] t)
  let (hour, t) ← readPadded? 2 (← Text.after? ['T'] t)
  let (minute, t) ← readPadded? 2 (← Text.after? [':'] t)
  let (second, t) ← readPadded? 2 (← Text.after? [':'] t)
  let (micro, t) ← readFraction? t
  if t = utcText then return utc { year, month, day, hour, minute, second, micro } else none

theorem iso_eq {m : Moment} (h : m.offset? = some 0) :
    let c := m.civil
    m.iso =
      Text.ofNatPadded 4 c.year ++ '-' :: (Text.ofNatPadded 2 c.month ++ '-' ::
        (Text.ofNatPadded 2 c.day ++ 'T' :: (Text.ofNatPadded 2 c.hour ++ ':' ::
          (Text.ofNatPadded 2 c.minute ++ ':' :: (Text.ofNatPadded 2 c.second ++
            (fractionText c.micro ++ utcText)))))) := by
  have hoffset : offsetText 0 = utcText := by decide
  simp [iso, monthDayText, clockText, fractionText, h, hoffset]

/-- A moment in UTC is read back from its written form. -/
theorem ofIso?_iso {m : Moment} (h : m.IsUtc) : ofIso? m.iso = some m := by
  obtain ⟨hoffset, hvalid⟩ := h
  obtain ⟨hyear, hmonth, hday, hhour, hminute, hsecond⟩ := Civil.bounds_of_isValid hvalid
  have hmicro : m.civil.micro < 1000000 := by
    simp only [Civil.isValid, Bool.and_eq_true, decide_eq_true_eq] at hvalid
    exact hvalid.2
  have hafter (c : Char) (t : Text) : Text.after? [c] (c :: t) = some t := Text.after?_eq_some_iff.2 rfl
  rw [iso_eq hoffset, ofIso?]
  rw [readPadded?_ofNatPadded (by decide) hyear]
  simp only [Option.bind_eq_bind, Option.bind_some, hafter]
  rw [readPadded?_ofNatPadded (by decide) (by omega)]
  simp only [Option.bind_some, hafter]
  rw [readPadded?_ofNatPadded (by decide) (by omega)]
  simp only [Option.bind_some, hafter]
  rw [readPadded?_ofNatPadded (by decide) (by omega)]
  simp only [Option.bind_some, hafter]
  rw [readPadded?_ofNatPadded (by decide) (by omega)]
  simp only [Option.bind_some, hafter]
  rw [readPadded?_ofNatPadded (by decide) (by omega)]
  simp only [Option.bind_some]
  rw [readFraction?_fractionText hmicro]
  obtain ⟨civil, offset?⟩ := m
  obtain rfl : offset? = some 0 := hoffset
  rfl

end Moment

end Annals

import Annals.BitKeeper.Log
import Annals.Git.Log
import Annals.Proofs.Date.Stamp

/-!
# Stamps as the tools print them

BitKeeper prints a stamp with `GMT` before the offset, Git in the strict form of ISO 8601, where the
offset zero may also be written as a letter. Both are read in UTC, with or without blanks around them
(`BitKeeper.readDate_stampText`, `Git.readDate_stampText`).
-/

namespace Annals

/-! ## Blanks in printed stamps -/

theorem Civil.dayText_ne_nil (c : Civil) : c.dayText ≠ [] := by simp [dayText]

theorem Civil.not_isBlank_of_mem_dayText {c : Civil} {d : Char} (h : d ∈ c.dayText) :
    ¬isBlank d := by
  simp only [dayText, List.mem_append, List.mem_cons] at h
  rcases h with h | rfl | h | rfl | h
  · exact Text.not_isBlank_of_mem_ofNatPadded h
  · decide
  · exact Text.not_isBlank_of_mem_ofNatPadded h
  · decide
  · exact Text.not_isBlank_of_mem_ofNatPadded h

theorem Moment.not_isBlank_of_mem_clockText {c : Civil} {d : Char} (h : d ∈ clockText c) :
    ¬isBlank d := by
  simp only [clockText, List.mem_append] at h
  have hcolon {e : Char} (he : e ∈ (":" : String).toList) : ¬isBlank e := by
    rw [List.mem_singleton.1 he]
    decide
  rcases h with (((h | h) | h) | h) | h
  · exact Text.not_isBlank_of_mem_ofNatPadded h
  · exact hcolon h
  · exact Text.not_isBlank_of_mem_ofNatPadded h
  · exact hcolon h
  · exact Text.not_isBlank_of_mem_ofNatPadded h

theorem Offset.text_ne_nil (o : Offset) (colon : Bool) : o.text colon ≠ [] := List.cons_ne_nil _ _

theorem Offset.not_isBlank_of_mem_text {o : Offset} {colon : Bool} {d : Char}
    (h : d ∈ o.text colon) : ¬isBlank d := by
  simp only [text, List.mem_cons, List.mem_append] at h
  rcases h with rfl | h | h | h
  · cases o.behind <;> decide
  · exact Text.not_isBlank_of_mem_ofNatPadded h
  · cases colon with
    | false => exact absurd h List.not_mem_nil
    | true =>
      rw [List.mem_singleton.1 h]
      decide
  · exact Text.not_isBlank_of_mem_ofNatPadded h

open DateItem in
/-- A time of day behind a blank. -/
theorem DatePattern.firstMatch?_blank_clock {items : DatePattern} {rest : Text} {f : DateFields}
    {r : DateFields × Text} {c : Civil} (h : c.isValid = true)
    (hitems : firstMatch? items { f with hour := c.hour, minute := c.minute, second := c.second }
      rest = some r) :
    firstMatch?
      (.blanks :: .hour :: .literal ':' :: .minute :: .literal ':' :: .second :: items) f
      (' ' :: (Moment.clockText c ++ rest)) = some r := by
  obtain ⟨d, ds, hd, hcons⟩ : ∃ d ds, ¬isBlank d ∧ Moment.clockText c ++ rest = d :: ds := by
    cases hc : Moment.clockText c with
    | nil => simp [Moment.clockText] at hc
    | cons d ds =>
      exact ⟨d, ds ++ rest, Moment.not_isBlank_of_mem_clockText (hc ▸ List.mem_cons_self), rfl⟩
  rw [hcons]
  refine firstMatch?_cons (first_blanks ds hd) ?_
  rw [← hcons]
  exact firstMatch?_clock h hitems

/-! ## BitKeeper -/

namespace BitKeeper

/-- What stands between the day and the offset of a stamp. -/
def clockField (c : Civil) : Text := ' ' :: (Moment.clockText c ++ ' ' :: 'G' :: 'M' :: 'T' :: [])

/-- A stamp as BitKeeper prints it. -/
def stampText (s : Stamp) : Text := s.civil.dayText ++ clockField s.civil ++ s.offset.text true

theorem not_isBlank_of_mem_stampText {s : Stamp} {d : Char} (h : d ∈ stampText s) :
    d = ' ' ∨ ¬isBlank d := by
  simp only [stampText, clockField, List.mem_append, List.mem_cons] at h
  rcases h with (h | rfl | h | rfl | rfl | rfl | rfl | h) | h
  · exact Or.inr (Civil.not_isBlank_of_mem_dayText h)
  · exact Or.inl rfl
  · exact Or.inr (Moment.not_isBlank_of_mem_clockText h)
  · exact Or.inl rfl
  · exact Or.inr (by decide)
  · exact Or.inr (by decide)
  · exact Or.inr (by decide)
  · exact absurd h List.not_mem_nil
  · exact Or.inr (Offset.not_isBlank_of_mem_text h)

open DateItem in
theorem firstMatch?_stampText (s : Stamp) :
    datePattern.firstMatch? {} (stampText s) =
      some (s.fields (.short s.offset.behind s.offset.hours s.offset.minutes true), []) := by
  have hh := s.offset.hours_lt
  have htext : stampText s = s.civil.dayText ++ ' ' :: (Moment.clockText s.civil ++
      ' ' :: 'G' :: 'M' :: 'T' :: s.offset.text true) := by
    simp [stampText, clockField]
  rw [htext, datePattern]
  refine DatePattern.firstMatch?_day s.valid ?_
  refine DatePattern.firstMatch?_blank_clock s.valid ?_
  refine DatePattern.firstMatch?_cons (first_blanks _ (by decide)) ?_
  refine DatePattern.firstMatch?_cons (first_literal 'G' _) ?_
  refine DatePattern.firstMatch?_cons (first_literal 'M' _) ?_
  refine DatePattern.firstMatch?_cons (first_literal 'T' _) ?_
  refine DatePattern.firstMatch?_cons
    (first_zone (Zone.first_short _ true (by omega) s.offset.minutes_lt)) ?_
  rfl

/-- A printed stamp is read in UTC, whatever blanks surround it. -/
theorem readDate_stampText (s : Stamp) (before after : Text) (hb : before.all isBlank)
    (ha : after.all isBlank) :
    readDate [datePattern] (before ++ stampText s ++ after) = s.reading := by
  have htrim : (before ++ stampText s ++ after).trim = stampText s :=
    Text.trim_solid hb ha (fun _ => Civil.not_isBlank_of_mem_dayText)
      (fun _ => Offset.not_isBlank_of_mem_text) (Civil.dayText_ne_nil _) (Offset.text_ne_nil _ _)
  refine Stamp.readDate_of_read? ?_
  rw [htrim]
  exact Stamp.read?_of_firstMatch? (firstMatch?_stampText s) (s.offset.offset?_short true)

end BitKeeper

/-! ## Git -/

namespace Git

/-- How the offset of a clock is printed: with a sign and digits, and for UTC also as a letter. -/
def zoneTexts (o : Offset) : List Text := o.text true :: if o.micros = 0 then [['Z']] else []

/-- What stands between the day and the offset of a stamp. -/
def clockField (c : Civil) : Text := 'T' :: Moment.clockText c

/-- The ways in which Git prints a stamp. -/
def stampTexts (s : Stamp) : List Text :=
  (zoneTexts s.offset).map fun zone => s.civil.dayText ++ clockField s.civil ++ zone

theorem zoneTexts_spec {o : Offset} {zone : Text} (h : zone ∈ zoneTexts o) :
    zone ≠ [] ∧ (∀ c ∈ zone, ¬isBlank c) ∧
      ∃ z, Matcher.First Zone.matcher zone z [] ∧ z.offset? = some o.micros := by
  have hh := o.hours_lt
  rcases List.mem_cons.1 h with rfl | h
  · refine ⟨o.text_ne_nil true, fun _ => Offset.not_isBlank_of_mem_text, _, ?_, o.offset?_short true⟩
    exact Zone.first_short o.behind true (by omega) o.minutes_lt
  · split at h
    · next hzero =>
      obtain rfl := List.mem_singleton.1 h
      refine ⟨List.cons_ne_nil _ _, fun c hc => ?_, .zulu, Zone.first_zulu [], hzero ▸ rfl⟩
      rw [List.mem_singleton.1 hc]
      decide
    · exact absurd h List.not_mem_nil

theorem not_isBlank_of_mem_stampTexts {s : Stamp} {t : Text} {d : Char} (ht : t ∈ stampTexts s)
    (h : d ∈ t) : ¬isBlank d := by
  obtain ⟨zone, hzone, rfl⟩ := List.mem_map.1 ht
  obtain ⟨-, hsolid, -⟩ := zoneTexts_spec hzone
  simp only [clockField, List.mem_append, List.mem_cons] at h
  rcases h with (h | rfl | h) | h
  · exact Civil.not_isBlank_of_mem_dayText h
  · decide
  · exact Moment.not_isBlank_of_mem_clockText h
  · exact hsolid d h

open DateItem in
/-- A printed stamp is read in UTC, whatever blanks surround it. -/
theorem readDate_stampText {s : Stamp} {t : Text} (ht : t ∈ stampTexts s) (before after : Text)
    (hb : before.all isBlank) (ha : after.all isBlank) :
    readDate datePatterns (before ++ t ++ after) = s.reading := by
  obtain ⟨zone, hzone, rfl⟩ := List.mem_map.1 ht
  obtain ⟨hne, hsolid, z, hfirst, hoffset⟩ := zoneTexts_spec hzone
  have hmatch : DatePattern.firstMatch? [.year, .literal '-', .month, .literal '-', .day,
      .literal 'T', .hour, .literal ':', .minute, .literal ':', .second, .zone] {}
      (s.civil.dayText ++ clockField s.civil ++ zone) = some (s.fields z, []) := by
    rw [clockField, List.append_assoc, List.cons_append]
    refine DatePattern.firstMatch?_day s.valid ?_
    refine DatePattern.firstMatch?_cons (first_literal 'T' _) ?_
    refine DatePattern.firstMatch?_clock s.valid ?_
    exact DatePattern.firstMatch?_cons (first_zone hfirst) rfl
  refine Stamp.readDate_of_read? ?_
  rw [Text.trim_solid hb ha (fun _ => Civil.not_isBlank_of_mem_dayText) hsolid
    (Civil.dayText_ne_nil _) hne]
  exact Stamp.read?_of_firstMatch? hmatch hoffset

end Git

end Annals

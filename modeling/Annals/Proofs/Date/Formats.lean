import Annals.Date.Written
import Annals.Proofs.Date.Days
import Annals.Proofs.Date.Printed

/-!
# Stamps in all formats

A stamp is written in three formats: by BitKeeper, and by Git in a strict one and in the one of older
versions. The last is not read in the first of Git's patterns, since it holds no `T`: a pattern with a
literal matches only texts in which the literal occurs (`exists_mem_of_firstMatch?`).

What is read does not depend on the format (`StampFormat.readDate_of_writes`): it is the civil time in
UTC, said without counting by `Stamp.IsInUtc`, and there is none exactly if that leaves the years 1 to
9999. So dates that are read are the same exactly at the same instant, and in the order of their
instants (`readDate_normalises`).
-/

namespace Annals

/-! ## What a matcher leaves -/

namespace Matcher

variable {α β : Type} {p q : Matcher α} {f : α → Matcher β}

/-- Whether a matcher always leaves an end of the text. -/
def LeavesEnd (p : Matcher α) : Prop := ∀ t, ∀ r ∈ p t, r.2 <:+ t

theorem LeavesEnd.andThen (hp : LeavesEnd p) (hf : ∀ a, LeavesEnd (f a)) :
    LeavesEnd (p.andThen f) := by
  intro t r hr
  obtain ⟨⟨a, t'⟩, ha, hr⟩ := List.mem_flatMap.1 hr
  exact (hf a t' r hr).trans (hp t _ ha)

theorem LeavesEnd.orElse (hp : LeavesEnd p) (hq : LeavesEnd q) : LeavesEnd (p.orElse q) := by
  intro t r hr
  exact (List.mem_append.1 hr).elim (hp t r) (hq t r)

theorem LeavesEnd.map (hp : LeavesEnd p) (g : α → β) : LeavesEnd (Matcher.map g p) := by
  intro t r hr
  obtain ⟨⟨a, t'⟩, ha, rfl⟩ := List.mem_map.1 hr
  exact hp t _ ha

theorem leavesEnd_pure (a : α) : LeavesEnd (pure a) := by
  intro t r hr
  obtain rfl : r = (a, t) := List.mem_singleton.1 hr
  exact List.suffix_refl t

theorem exists_cons_of_mem_one {g : Char → Option α} {t : Text} {r : α × Text} (h : r ∈ one g t) :
    ∃ c, g c = some r.1 ∧ t = c :: r.2 := by
  cases t with
  | nil => exact absurd h List.not_mem_nil
  | cons c cs =>
    rw [one] at h
    split at h
    · next a ha =>
      rw [List.mem_singleton.1 h]
      exact ⟨c, ha, rfl⟩
    · exact absurd h List.not_mem_nil

theorem leavesEnd_one (g : Char → Option α) : LeavesEnd (one g) := by
  intro t r hr
  obtain ⟨c, -, rfl⟩ := exists_cons_of_mem_one hr
  exact List.suffix_cons c r.2

theorem leavesEnd_pair {tens ones : Matcher Nat} (ht : LeavesEnd tens) (ho : LeavesEnd ones) :
    LeavesEnd (pair tens ones) :=
  ht.andThen fun _ => ho.map _

theorem leavesEnd_option (c : Char) : LeavesEnd (option c) :=
  ((leavesEnd_one _).map _).orElse (leavesEnd_pure _)

theorem leavesEnd_digits (n : Nat) : LeavesEnd (digits n) := by
  induction n with
  | zero => exact leavesEnd_pure 0
  | succ n ih => exact ih.andThen fun _ => (leavesEnd_one _).map _

theorem leavesEnd_fraction (places n : Nat) : LeavesEnd (fraction places n) := by
  induction n with
  | zero => exact fun t r hr => absurd hr List.not_mem_nil
  | succ n ih => exact ((leavesEnd_digits _).map _).orElse ih

theorem leavesEnd_blanks : LeavesEnd blanks := by
  have hafter (t' : Text) : ∀ (t : Text) (shorter : List (Unit × Text)), t <:+ t' →
      (∀ r ∈ shorter, r.2 <:+ t') → ∀ r ∈ blanksAfter shorter t, r.2 <:+ t' := by
    intro t
    induction t with
    | nil => exact fun shorter _ hshorter => hshorter
    | cons c cs ih =>
      intro shorter ht hshorter
      have hcs : cs <:+ t' := (List.suffix_cons c cs).trans ht
      rw [blanksAfter]
      split
      · exact ih _ hcs (List.forall_mem_cons.2 ⟨hcs, hshorter⟩)
      · exact hshorter
  exact fun t => hafter t t [] (List.suffix_refl t) fun _ hr => absurd hr List.not_mem_nil

end Matcher

open Matcher in
theorem Zone.leavesEnd_matcher : LeavesEnd Zone.matcher := by
  have hsign := ((leavesEnd_one fun d => if d = '+' then some () else none).map fun _ => false).orElse
    ((leavesEnd_one fun d => if d = '-' then some () else none).map fun _ => true)
  have hsixty : LeavesEnd (pair (digitIn '0' '5') digit) :=
    leavesEnd_pair (leavesEnd_one _) (leavesEnd_one _)
  have hfraction : LeavesEnd (((char '.').andThen fun _ => fraction 6 6).orElse (Matcher.pure 0)) :=
    ((leavesEnd_one _).andThen fun _ => leavesEnd_fraction 6 6).orElse (leavesEnd_pure 0)
  refine LeavesEnd.orElse ?_ ((leavesEnd_one _).map _)
  refine hsign.andThen fun _ => ?_
  refine (leavesEnd_pair (leavesEnd_one _) (leavesEnd_one _)).andThen fun _ => ?_
  refine (leavesEnd_option ':').andThen fun _ => hsixty.andThen fun _ => ?_
  refine LeavesEnd.orElse ?_ (leavesEnd_pure _)
  exact (leavesEnd_option ':').andThen fun _ => hsixty.andThen fun _ => hfraction.map _

open Matcher in
theorem DateItem.leavesEnd_matcher (item : DateItem) : LeavesEnd item.matcher := by
  have hpair (low high : Char) : LeavesEnd (pair (digitIn low high) digit) :=
    leavesEnd_pair (leavesEnd_one _) (leavesEnd_one _)
  unfold matcher
  cases item with
  | year => exact (leavesEnd_digits 4).map _
  | month =>
    refine LeavesEnd.map (LeavesEnd.orElse (LeavesEnd.orElse ?_ ?_) (leavesEnd_one _)) _
    · exact (leavesEnd_one _).andThen fun _ => (leavesEnd_one _).map _
    · exact (leavesEnd_one _).andThen fun _ => leavesEnd_one _
  | day =>
    refine LeavesEnd.map (LeavesEnd.orElse (LeavesEnd.orElse (LeavesEnd.orElse
      (LeavesEnd.orElse ?_ (hpair _ _)) ?_) (leavesEnd_one _)) ?_) _
    · exact (leavesEnd_one _).andThen fun _ => (leavesEnd_one _).map _
    · exact (leavesEnd_one _).andThen fun _ => leavesEnd_one _
    · exact (leavesEnd_one _).andThen fun _ => leavesEnd_one _
  | hour =>
    refine LeavesEnd.map (LeavesEnd.orElse (LeavesEnd.orElse ?_ (hpair _ _)) (leavesEnd_one _)) _
    exact (leavesEnd_one _).andThen fun _ => (leavesEnd_one _).map _
  | minute => exact ((hpair _ _).orElse (leavesEnd_one _)).map _
  | second =>
    refine LeavesEnd.map (LeavesEnd.orElse (LeavesEnd.orElse ?_ (hpair _ _)) (leavesEnd_one _)) _
    exact (leavesEnd_one _).andThen fun _ => (leavesEnd_one _).map _
  | zone => exact Zone.leavesEnd_matcher.map _
  | blanks => exact leavesEnd_blanks.map _
  | literal c => exact (leavesEnd_one _).map _

namespace DatePattern

/-- A pattern with a literal only matches texts in which the literal occurs. -/
theorem exists_mem_of_firstMatch? {p : DatePattern} {f : DateFields} {t : Text}
    {r : DateFields × Text} {l : Char} (hl : .literal l ∈ p) (h : firstMatch? p f t = some r) :
    ∃ c ∈ t, agreeButForCase l c = true := by
  induction p generalizing f t with
  | nil => exact absurd hl List.not_mem_nil
  | cons item items ih =>
    rw [firstMatch?] at h
    obtain ⟨⟨set, rest⟩, hread, hrest⟩ := List.exists_of_findSome?_eq_some h
    rcases List.mem_cons.1 hl with rfl | hl
    · obtain ⟨⟨u, t'⟩, hone, -⟩ := List.mem_map.1 hread
      obtain ⟨c, hc, rfl⟩ := Matcher.exists_cons_of_mem_one hone
      split at hc
      · next hagree => exact ⟨c, List.mem_cons_self, hagree⟩
      · exact absurd hc.symm (Option.some_ne_none _)
    · obtain ⟨c, hc, hagree⟩ := ih hl hrest
      exact ⟨c, (item.leavesEnd_matcher t _ hread).subset hc, hagree⟩

theorem read?_eq_none {p : DatePattern} {t : Text} {l : Char} (hl : .literal l ∈ p)
    (h : ∀ c ∈ t, agreeButForCase l c = false) : p.read? t = none := by
  rw [read?]
  split
  · next f hmatch =>
    obtain ⟨c, hc, hagree⟩ := exists_mem_of_firstMatch? hl hmatch
    exact absurd (h c hc) (by simp [hagree])
  · rfl

end DatePattern

theorem readDate_cons_of_read?_eq_none {p : DatePattern} {ps : List DatePattern} {t : Text}
    (h : p.read? t.trim = none) : readDate (p :: ps) t = readDate ps t := by
  simp only [readDate, List.findSome?_cons, h]

/-- Patterns that are given as texts are read like the patterns they describe, if these are sound. -/
theorem readDateIn_eq {texts : List Text} {ps : List DatePattern}
    (hps : texts.filterMap DatePattern.ofText? = ps) (hsound : ∀ p ∈ ps, p.repetition? = none)
    (t : Text) : readDateIn texts t = (readDate ps t).mapError .ofDate := by
  have hfirst (ps : List DatePattern) (hsound : ∀ p ∈ ps, p.repetition? = none) :
      firstReading t.trim ps = .ok (ps.findSome? fun p => p.read? t.trim) := by
    induction ps with
    | nil => rfl
    | cons p ps ih =>
      obtain ⟨hp, hps⟩ := List.forall_mem_cons.1 hsound
      rw [firstReading, hp, List.findSome?_cons]
      cases hread : p.read? t.trim with
      | none => exact ih hps
      | some m => rfl
  rw [readDateIn, hps, hfirst ps hsound, readDate]
  simp only [bind, Except.bind]
  cases ps.findSome? fun p => p.read? t.trim with
  | none => rfl
  | some m =>
    dsimp only
    cases m.toUtc? <;> rfl

/-! ## The format of older versions -/

theorem agreeButForCase_of_lt : ∀ n < 'A'.toNat, agreeButForCase 'T' (Char.ofNat n) = false := by
  decide +kernel

namespace Git

/-- A stamp as older versions of Git print it. -/
def plainText (s : Stamp) : Text :=
  s.civil.dayText ++ (' ' :: (Moment.clockText s.civil ++ [' '])) ++ s.offset.text false

/-- No letter occurs in it. -/
theorem all_toNat_lt_plainText (s : Stamp) : (plainText s).all (·.toNat < 'A'.toNat) = true := by
  have hnumber (w n : Nat) : (Text.ofNatPadded w n).all (·.toNat < 'A'.toNat) = true := by
    refine List.all_eq_true.2 fun c hc => decide_eq_true ?_
    have hdigit := Text.isDigit_of_mem_ofNatPadded hc
    simp only [Char.isDigit, Bool.and_eq_true, decide_eq_true_eq, ge_iff_le,
      UInt32.le_iff_toNat_le] at hdigit
    exact Nat.lt_of_le_of_lt hdigit.2 (by decide)
  have hsign : (Zone.sign s.offset.behind).toNat < 'A'.toNat := by cases s.offset.behind <;> decide
  simp only [plainText, Civil.dayText, Moment.clockText, Offset.text, Zone.colonText,
    List.all_append, List.all_cons, hnumber, hsign]
  decide

open DateItem in
/-- A stamp as older versions print it is read in UTC, whatever blanks surround it. -/
theorem readDate_plainText (s : Stamp) (before after : Text) (hb : before.all isBlank)
    (ha : after.all isBlank) :
    readDate datePatterns (before ++ plainText s ++ after) = s.reading := by
  have hh := s.offset.hours_lt
  have htrim : (before ++ plainText s ++ after).trim = plainText s :=
    Text.trim_solid hb ha (fun _ => Civil.not_isBlank_of_mem_dayText)
      (fun _ => Offset.not_isBlank_of_mem_text) (Civil.dayText_ne_nil _) (Offset.text_ne_nil _ _)
  have hpatterns : datePatterns =
      [[year, literal '-', month, literal '-', day, literal 'T', hour, literal ':', minute,
          literal ':', second, zone],
        [year, literal '-', month, literal '-', day, .blanks, hour, literal ':', minute, literal ':',
          second, .blanks, zone]] := rfl
  rw [hpatterns]
  -- the strict pattern is tried first, and fails for lack of a T
  rw [readDate_cons_of_read?_eq_none]
  · refine Stamp.readDate_of_read? ?_
    rw [htrim]
    refine Stamp.read?_of_firstMatch? ?_ (s.offset.offset?_short false)
    have htext : plainText s = s.civil.dayText ++ ' ' :: (Moment.clockText s.civil ++
        ' ' :: s.offset.text false) := by
      simp [plainText]
    rw [htext]
    refine DatePattern.firstMatch?_day s.valid ?_
    refine DatePattern.firstMatch?_blank_clock s.valid ?_
    have hsign : ¬isBlank (Zone.sign s.offset.behind) := by cases s.offset.behind <;> decide
    refine DatePattern.firstMatch?_cons (first_blanks _ hsign) ?_
    exact DatePattern.firstMatch?_cons
      (first_zone (Zone.first_short _ false (by omega) s.offset.minutes_lt)) rfl
  · rw [htrim]
    refine DatePattern.read?_eq_none (l := 'T') (by simp) fun c hc => ?_
    rw [← Char.ofNat_toNat c]
    have hlt := List.all_eq_true.1 (all_toNat_lt_plainText s) c hc
    exact agreeButForCase_of_lt _ (of_decide_eq_true hlt)

end Git

/-! ## All formats -/

/-- The formats in which tools write stamps. -/
inductive StampFormat where
  | bitkeeper
  | gitStrict
  /-- The format of older versions. -/
  | gitPlain
  deriving DecidableEq

namespace StampFormat

/-- The patterns for dates in a format, as they are written. -/
def patternTexts : StampFormat → List Text
  | bitkeeper => ["%Y-%m-%d %H:%M:%S GMT%z"]
  | gitStrict | gitPlain => ["%Y-%m-%dT%H:%M:%S%z", "%Y-%m-%d %H:%M:%S %z"]

/-- The patterns for dates in a format. -/
def patterns : StampFormat → List DatePattern
  | bitkeeper => [BitKeeper.datePattern]
  | gitStrict | gitPlain => Git.datePatterns

/-- A stamp in a format. -/
def write : StampFormat → Stamp → Text
  | bitkeeper, s => BitKeeper.stampText s
  | gitStrict, s => s.civil.dayText ++ Git.clockField s.civil ++ s.offset.text true
  | gitPlain, s => Git.plainText s

/-- Whether a text is a stamp in a format, with any blanks around it. -/
def Writes (F : StampFormat) (s : Stamp) (t : Text) : Prop :=
  ∃ before after : Text, before.all isBlank = true ∧ after.all isBlank = true ∧
    t = before ++ F.write s ++ after

variable {F G : StampFormat} {s s' : Stamp} {t t' : Text}

theorem patterns_ofText? (F : StampFormat) :
    F.patternTexts.filterMap DatePattern.ofText? = F.patterns := by
  cases F <;> decide +kernel

theorem repetition?_patterns (F : StampFormat) : ∀ p ∈ F.patterns, p.repetition? = none := by
  cases F <;> decide +kernel

/-- A stamp is read in UTC, in whatever format it is written. -/
theorem readDate_of_writes (h : F.Writes s t) : readDate F.patterns t = s.reading := by
  obtain ⟨before, after, hb, ha, rfl⟩ := h
  cases F with
  | bitkeeper => exact BitKeeper.readDate_stampText s before after hb ha
  | gitStrict => exact Git.readDate_stampText List.mem_cons_self before after hb ha
  | gitPlain => exact Git.readDate_plainText s before after hb ha

theorem readDateIn_of_writes (h : F.Writes s t) :
    readDateIn F.patternTexts t = s.reading.mapError .ofDate := by
  rw [readDateIn_eq F.patterns_ofText? F.repetition?_patterns, readDate_of_writes h]

end StampFormat

namespace Stamp

variable {s s' : Stamp} {m m' : Moment}

/-- A stamp is read as its civil time in UTC. -/
theorem reading_eq_ok_iff : s.reading = .ok m ↔ m.offset? = some 0 ∧ s.IsInUtc m.civil := by
  rw [reading]
  split
  · next hs =>
    have hcivil : m = .utc m.civil ↔ m.offset? = some 0 := by
      obtain ⟨civil, offset?⟩ := m
      simp [Moment.utc]
    rw [isInUtc_iff_eq hs, Except.ok.injEq, ← hcivil]
    constructor
    · rintro rfl
      exact ⟨rfl, rfl⟩
    · rintro ⟨hm, hutc⟩
      exact hutc.symm.trans hm.symm
  · next hs => exact iff_of_false (by simp) fun h => hs (exists_isInUtc_iff.1 ⟨_, h.2⟩)

theorem instant_of_reading (h : s.reading = .ok m) : m.instant = s.instant := by
  obtain ⟨hoffset, hutc⟩ := reading_eq_ok_iff.1 h
  rw [Moment.instant, hoffset, (isInUtc_iff.1 hutc).2, Option.getD_some, Int.sub_zero]

/-- Readings are the same at the same instant only. -/
theorem reading_eq_iff (h : s.reading = .ok m) (h' : s'.reading = .ok m') :
    m = m' ↔ s.instant = s'.instant := by
  rw [← instant_of_reading h, ← instant_of_reading h']
  refine ⟨congrArg _, fun hinstant => ?_⟩
  obtain ⟨hoffset, hutc⟩ := reading_eq_ok_iff.1 h
  obtain ⟨hoffset', hutc'⟩ := reading_eq_ok_iff.1 h'
  have hmicros : m.civil.micros = m'.civil.micros := by
    rw [Moment.instant, Moment.instant, hoffset, hoffset'] at hinstant
    exact Int.ofNat_inj.1 ((Int.sub_left_inj _).1 hinstant)
  have hcivil : m.civil = m'.civil := Civil.eq_of_micros_eq hutc.1 hutc'.1 hmicros
  obtain ⟨civil, offset?⟩ := m
  obtain ⟨civil', offset?'⟩ := m'
  rw [show civil = civil' from hcivil, show offset? = offset?' from hoffset.trans hoffset'.symm]

/-- Readings are in the order of their instants. -/
theorem parts_lt_iff_of_reading (h : s.reading = .ok m) (h' : s'.reading = .ok m') :
    m.civil.parts < m'.civil.parts ↔ s.instant < s'.instant := by
  obtain ⟨hvalid, hmicros⟩ := isInUtc_iff.1 (reading_eq_ok_iff.1 h).2
  obtain ⟨hvalid', hmicros'⟩ := isInUtc_iff.1 (reading_eq_ok_iff.1 h').2
  rw [← Civil.micros_lt_iff hvalid hvalid', ← hmicros, ← hmicros', Int.ofNat_lt]

end Stamp

/-- A stamp in any format, with any blanks around it, is read as its civil time in UTC, and is out of
range if it has none in the years 1 to 9999. Readings are the same exactly at the same instant, and in
the order of their instants, whatever the formats are. -/
theorem readDate_normalises {F G : StampFormat} {s s' : Stamp} {t t' : Text} (h : F.Writes s t)
    (h' : G.Writes s' t') :
    readDateIn F.patternTexts t = (readDate F.patterns t).mapError .ofDate ∧
    (s.InRange ↔ ∃ u, s.IsInUtc u) ∧
    (∀ m, readDate F.patterns t = .ok m ↔ m.offset? = some 0 ∧ s.IsInUtc m.civil) ∧
    (¬s.InRange → readDateIn F.patternTexts t = .error .dateOutOfRange ∧
      Failure.dateOutOfRange.kind = .overflow) ∧
    ∀ m m', readDate F.patterns t = .ok m → readDate G.patterns t' = .ok m' →
      m.instant = s.instant ∧ (m = m' ↔ s.instant = s'.instant) ∧
        (m.civil.parts < m'.civil.parts ↔ s.instant < s'.instant) := by
  have hread := StampFormat.readDate_of_writes h
  have hread' := StampFormat.readDate_of_writes h'
  have hwritten := StampFormat.readDateIn_of_writes h
  rw [hread, hread', hwritten]
  refine ⟨rfl, Stamp.exists_isInUtc_iff.symm, fun m => Stamp.reading_eq_ok_iff, ?_, ?_⟩
  · intro hs
    rw [Stamp.reading, if_neg hs]
    exact ⟨rfl, rfl⟩
  · intro m m' hm hm'
    exact ⟨Stamp.instant_of_reading hm, Stamp.reading_eq_iff hm hm',
      Stamp.parts_lt_iff_of_reading hm hm'⟩

/-- The first half hour of March ahead of UTC and the evening before behind it, both on the leap day
in UTC. -/
theorem readDate_normalises_of_leap_day :
    let m : Moment := .utc ⟨2024, 2, 29, 23, 30, 0, 0⟩
    readDate Git.datePatterns " 2024-03-01 00:30:00 +0100\n" = .ok m ∧
      readDate [BitKeeper.datePattern] "2024-02-29 18:00:00 GMT-05:30" = .ok m := by
  intro m
  let s : Stamp := ⟨⟨2024, 3, 1, 0, 30, 0, 0⟩, ⟨false, 1, 0, by decide, by decide⟩, by decide, rfl⟩
  let s' : Stamp := ⟨⟨2024, 2, 29, 18, 0, 0, 0⟩, ⟨true, 5, 30, by decide, by decide⟩, by decide, rfl⟩
  have h : StampFormat.gitPlain.Writes s " 2024-03-01 00:30:00 +0100\n" :=
    ⟨[' '], ['\n'], by decide, by decide, by decide⟩
  have h' : StampFormat.bitkeeper.Writes s' "2024-02-29 18:00:00 GMT-05:30" :=
    ⟨[], [], by decide, by decide, by decide⟩
  obtain ⟨-, -, hread, -⟩ := readDate_normalises h h'
  obtain ⟨-, -, hread', -⟩ := readDate_normalises h' h
  have hutc : s.IsInUtc m.civil := ⟨by decide, .inr (.inr (by decide))⟩
  have hutc' : s'.IsInUtc m.civil := ⟨by decide, .inl (by decide)⟩
  exact ⟨(hread m).2 ⟨rfl, hutc⟩, (hread' m).2 ⟨rfl, hutc'⟩⟩

end Annals

import Annals.Proofs.Version.NormalForm
import Annals.Version.Banner

/-!
# Announced versions

A version is looked for where the words of a banner stand first with something behind them that may be
one (`Opens`): a dash followed by a digit in the same line, a digit, or a word. What counts there is a
dotted number as long as it goes on, behind the last such dash, or the whole word (`Follows`). That is
the text that is found (`find?_eq_some_iff`), and the version is that of the text if it is a dotted number
that is not too long, and the oldest one in every other case (`version_of_announced`).
-/

namespace Annals

namespace Text

/-- What is found among the tails of a text is found where it stands first. -/
theorem findSome?_tails_eq_some_iff {α : Type} {f : Text → Option α} {t : Text} {a : α} :
    (tails t).findSome? f = some a ↔ ∃ before rest, t = before ++ rest ∧ f rest = some a ∧
      ∀ before' rest', t = before' ++ rest' → before'.length < before.length → f rest' = none := by
  induction t with
  | nil =>
    have hnil {before rest : Text} : [] = before ++ rest ↔ before = [] ∧ rest = [] := by
      rw [eq_comm, List.append_eq_nil_iff]
    simp [tails, hnil]
  | cons c cs ih =>
    rw [tails, List.findSome?_cons]
    cases hfirst : f (c :: cs) with
    | some b =>
      refine ⟨fun h => ⟨[], c :: cs, rfl, hfirst.trans h, fun _ _ _ hlt => nomatch hlt⟩, ?_⟩
      rintro ⟨before, rest, hsplit, hrest, hbefore⟩
      cases before with
      | nil =>
        obtain rfl : c :: cs = rest := hsplit
        exact hfirst.symm.trans hrest
      | cons d ds =>
        have hnone : f (c :: cs) = none := hbefore [] (c :: cs) rfl (Nat.zero_lt_succ _)
        exact nomatch hfirst.symm.trans hnone
    | none =>
      rw [ih]
      constructor
      · rintro ⟨before, rest, rfl, hrest, hbefore⟩
        refine ⟨c :: before, rest, rfl, hrest, fun before' rest' hsplit hlt => ?_⟩
        cases before' with
        | nil =>
          obtain rfl : c :: (before ++ rest) = rest' := hsplit
          exact hfirst
        | cons d ds => exact hbefore ds rest' (List.cons.inj hsplit).2 (Nat.lt_of_succ_lt_succ hlt)
      · rintro ⟨before, rest, hsplit, hrest, hbefore⟩
        cases before with
        | nil =>
          obtain rfl : c :: cs = rest := hsplit
          exact nomatch hfirst.symm.trans hrest
        | cons d ds =>
          refine ⟨ds, rest, (List.cons.inj hsplit).2, hrest, fun before' rest' hsplit' hlt => ?_⟩
          exact hbefore (c :: before') rest' (congrArg (c :: ·) hsplit') (Nat.succ_lt_succ hlt)

theorem mem_tails_append (before rest : Text) : rest ∈ tails (before ++ rest) := by
  induction before with
  | nil => cases rest <;> exact List.mem_cons_self
  | cons c cs ih => exact List.mem_cons_of_mem _ ih

/-- The longest front of a text whose characters all satisfy a condition. -/
def IsFront (p : Char → Prop) (front t : Text) : Prop :=
  (∀ c ∈ front, p c) ∧ ∃ rest, t = front ++ rest ∧ ∀ c ∈ rest.head?, ¬p c

theorem takeWhile_eq_iff {p : Char → Bool} {front t : Text} :
    t.takeWhile p = front ↔ IsFront (p · = true) front t := by
  constructor
  · rintro rfl
    refine ⟨fun c hc => List.mem_takeWhile_imp hc, t.dropWhile p,
      List.takeWhile_append_dropWhile.symm, fun c hc => ?_⟩
    have hstop := List.head?_dropWhile_not p t
    rw [Option.mem_def.1 hc] at hstop
    exact Bool.eq_false_iff.1 hstop
  · rintro ⟨hfront, rest, rfl, hrest⟩
    rw [List.takeWhile_append_of_pos hfront]
    cases rest with
    | nil => exact List.append_nil _
    | cons c cs => rw [List.takeWhile_cons_of_neg (hrest c rfl), List.append_nil]

/-- Whether a text begins with a digit. -/
def BeginsWithDigit (t : Text) : Prop := ∃ c ∈ t.head?, isDigit c = true

/-- The longest front of a text that is runs of digits with single dots between them. -/
def IsDottedFront (front t : Text) : Prop :=
  (∃ d : DigitRuns, d.written '.' = front) ∧ front <+: t ∧
    ∀ d : DigitRuns, d.written '.' <+: t → (d.written '.').length ≤ front.length

end Text

theorem isDigit_dot : isDigit '.' = false := by decide

namespace Banner

open Text (BeginsWithDigit IsDottedFront IsFront)

variable {b : Banner} {t run : Text}

/-! ## Dotted numbers -/

theorem dottedRun_prefix (t : Text) : dottedRun t <+: t := by
  fun_induction dottedRun t with
  | case1 => exact List.prefix_refl _
  | case2 c cs hc ih => exact (List.prefix_cons_inj c).2 ih
  | case3 d ds hdot hd ih => exact (List.prefix_cons_inj '.').2 ih
  | case4 d ds hdot hd => exact List.nil_prefix
  | case5 => exact List.nil_prefix
  | case6 => exact List.nil_prefix

theorem dottedRun_digit {c : Char} (hc : isDigit c = true) (t : Text) :
    dottedRun (c :: t) = c :: dottedRun t := by
  rw [dottedRun.eq_def]
  exact if_pos hc

theorem dottedRun_dot {c : Char} (hc : isDigit c = true) (t : Text) :
    dottedRun ('.' :: c :: t) = '.' :: dottedRun (c :: t) := by
  have hdot := isDigit_dot
  rw [dottedRun.eq_def]
  simp [hc, hdot]

/-- Behind a digit, what is taken goes on with the number. -/
theorem inRuns_dottedRun {c : Char} (hc : isDigit c = true) (t : Text) :
    Text.inRuns '.' (c :: dottedRun t) = true := by
  have hdot := isDigit_dot
  have halone {c : Char} (hc : isDigit c = true) : Text.inRuns '.' [c] = true :=
    (Text.inRuns_singleton hdot).trans hc
  fun_induction dottedRun t generalizing c with
  | case1 => exact halone hc
  | case2 d ds hd ih => rw [Text.inRuns_cons hdot hc (Text.ne_of_isDigit hdot hd), ih hd]
  | case3 d ds hd _ ih =>
    have hrest := ih hd
    rw [dottedRun_digit hd] at hrest ⊢
    rwa [Text.inRuns_sep hdot hc, ← Text.inRuns_cons hdot hd (Text.ne_of_isDigit hdot hd)]
  | case4 => exact halone hc
  | case5 => exact halone hc
  | case6 => exact halone hc

/-- Behind a digit, what goes on with the number is taken. -/
theorem length_le_dottedRun {c : Char} {u : Text} (hc : isDigit c = true)
    (hruns : Text.inRuns '.' (c :: u) = true) (rest : Text) :
    u.length ≤ (dottedRun (u ++ rest)).length := by
  have hdot := isDigit_dot
  induction u generalizing c with
  | nil => exact Nat.zero_le _
  | cons d u ih =>
    by_cases hd : d = '.'
    · subst hd
      rw [Text.inRuns_sep hdot hc] at hruns
      obtain ⟨e, v, rfl, he⟩ := Text.exists_digit_of_inRuns hruns
      rw [← Text.inRuns_cons hdot he (Text.ne_of_isDigit hdot he)] at hruns
      rw [List.cons_append, List.cons_append, dottedRun_dot he]
      exact Nat.succ_le_succ (ih he hruns)
    · rw [Text.inRuns_cons hdot hc hd] at hruns
      obtain ⟨e, v, heq, he⟩ := Text.exists_digit_of_inRuns hruns
      obtain ⟨rfl, rfl⟩ := List.cons.inj heq
      rw [List.cons_append, dottedRun_digit he]
      exact Nat.succ_le_succ (ih he hruns)

/-- What is taken of a text that begins with a digit is the longest front that is a dotted number. -/
theorem isDottedFront_dottedRun {c : Char} (hc : isDigit c = true) (t : Text) :
    IsDottedFront (dottedRun (c :: t)) (c :: t) := by
  have hdot := isDigit_dot
  refine ⟨?_, dottedRun_prefix _, fun d hd => ?_⟩
  · rw [dottedRun_digit hc]
    exact (Text.inRuns_iff hdot).1 (inRuns_dottedRun hc t)
  · have hruns := Text.inRuns_written d hdot
    obtain ⟨rest, hrest⟩ := hd
    obtain ⟨e, u, hwritten, he⟩ := Text.exists_digit_of_inRuns hruns
    rw [hwritten] at hruns hrest ⊢
    obtain ⟨rfl, rfl⟩ := List.cons.inj hrest
    rw [dottedRun_digit hc]
    exact Nat.succ_le_succ (length_le_dottedRun hc hruns rest)

theorem IsDottedFront.unique {front front' : Text} (h : IsDottedFront front t)
    (h' : IsDottedFront front' t) : front = front' := by
  obtain ⟨⟨d, rfl⟩, hd, hmax⟩ := h
  obtain ⟨⟨d', rfl⟩, hd', hmax'⟩ := h'
  exact (List.prefix_of_prefix_length_le hd hd' (hmax' d hd)).eq_of_length
    (Nat.le_antisymm (hmax' d hd) (hmax d' hd'))

theorem beginsWithDigit_iff : BeginsWithDigit t ↔ ∃ c u, t = c :: u ∧ isDigit c = true := by
  cases t with
  | nil => simp [BeginsWithDigit]
  | cons c u => simp [BeginsWithDigit]

theorem dottedStart?_eq_some_iff : dottedStart? t = some run ↔ IsDottedFront run t := by
  constructor
  · intro h
    cases t with
    | nil => contradiction
    | cons c u =>
      rw [dottedStart?, Option.ite_none_right_eq_some] at h
      obtain ⟨hc, hrun⟩ := h
      obtain rfl := Option.some.inj hrun
      exact isDottedFront_dottedRun hc u
  · intro h
    obtain ⟨d, rfl⟩ := h.1
    obtain ⟨c, u, hwritten, hc⟩ := Text.exists_digit_of_inRuns (Text.inRuns_written d isDigit_dot)
    obtain ⟨rest, rfl⟩ := h.2.1
    rw [hwritten] at h ⊢
    rw [List.cons_append, dottedStart?, if_pos hc]
    exact congrArg some (IsDottedFront.unique (isDottedFront_dottedRun hc (u ++ rest)) h)

theorem exists_isDottedFront_iff : (∃ run, IsDottedFront run t) ↔ BeginsWithDigit t := by
  simp only [← dottedStart?_eq_some_iff, beginsWithDigit_iff]
  cases t with
  | nil => simp [dottedStart?]
  | cons c u => by_cases hc : isDigit c <;> simp [dottedStart?, hc]

/-! ## Dashes -/

/-- A text holds a dash that is followed by a digit. -/
def DashAt (before after t : Text) : Prop := t = before ++ '-' :: after ∧ BeginsWithDigit after

theorem dashAt_cons {c : Char} {before after : Text} : DashAt before after (c :: t) ↔
    (before = [] ∧ c = '-' ∧ t = after ∧ BeginsWithDigit after) ∨
      ∃ ds, before = c :: ds ∧ DashAt ds after t := by
  cases before with
  | nil => simp [DashAt, and_assoc]
  | cons d ds => simp [DashAt, and_assoc, eq_comm]

theorem not_dashAt_nil {before after : Text} : ¬DashAt before after [] := by
  simp [DashAt]

theorem afterLastDash?_eq_none_iff :
    afterLastDash? t = none ↔ ∀ before after, ¬DashAt before after t := by
  induction t with
  | nil => exact ⟨fun _ _ _ => not_dashAt_nil, fun _ => rfl⟩
  | cons c cs ih =>
    rw [afterLastDash?]
    constructor
    · intro h before after hdash
      cases hrest : afterLastDash? cs with
      | some found => rw [hrest] at h; contradiction
      | none =>
        rcases dashAt_cons.1 hdash with ⟨-, hc, rfl, hdigit⟩ | ⟨ds, -, hds⟩
        · obtain ⟨run, hrun⟩ := exists_isDottedFront_iff.2 hdigit
          simp only [hrest, if_pos hc, dottedStart?_eq_some_iff.2 hrun] at h
          contradiction
        · exact ih.1 hrest ds after hds
    · intro h
      have hrest : afterLastDash? cs = none := ih.2 fun ds after hds =>
        h (c :: ds) after (dashAt_cons.2 (.inr ⟨ds, rfl, hds⟩))
      have hnone (hc : c = '-') : dottedStart? cs = none := by
        refine Option.eq_none_iff_forall_ne_some.2 fun run hrun => h [] cs (dashAt_cons.2 (.inl ?_))
        exact ⟨rfl, hc, rfl, exists_isDottedFront_iff.1 ⟨run, dottedStart?_eq_some_iff.1 hrun⟩⟩
      simp only [hrest]
      split
      · next hc => exact hnone hc
      · rfl

/-- The last dash of a text that is followed by a digit. -/
def IsLastDash (before after t : Text) : Prop :=
  DashAt before after t ∧ ∀ before' after', DashAt before' after' t → before'.length ≤ before.length

/-- A later dash takes precedence over one in front. -/
theorem isLastDash_cons_of_later {c : Char} {before after : Text} (h : ∃ ds rest, DashAt ds rest t) :
    IsLastDash before after (c :: t) ↔ ∃ ds, before = c :: ds ∧ IsLastDash ds after t := by
  constructor
  · rintro ⟨hdash, hmax⟩
    have hlater {ds rest : Text} (hds : DashAt ds rest t) : ds.length < before.length :=
      hmax (c :: ds) rest (dashAt_cons.2 (.inr ⟨ds, rfl, hds⟩))
    rcases dashAt_cons.1 hdash with ⟨rfl, -⟩ | ⟨ds, rfl, hds⟩
    · obtain ⟨ds, rest, hds⟩ := h
      exact nomatch hlater hds
    · exact ⟨ds, rfl, hds, fun _ _ hds' => Nat.le_of_lt_succ (hlater hds')⟩
  · rintro ⟨ds, rfl, hds, hmax⟩
    refine ⟨dashAt_cons.2 (.inr ⟨ds, rfl, hds⟩), ?_⟩
    intro before' after' hdash'
    rcases dashAt_cons.1 hdash' with ⟨rfl, -⟩ | ⟨ds', rfl, hds'⟩
    · exact Nat.zero_le _
    · exact Nat.succ_le_succ (hmax ds' after' hds')

theorem isLastDash_cons_of_none {c : Char} {before after : Text} (h : ∀ ds rest, ¬DashAt ds rest t) :
    IsLastDash before after (c :: t) ↔
      before = [] ∧ c = '-' ∧ t = after ∧ BeginsWithDigit after := by
  have hfront {before' after' : Text} : DashAt before' after' (c :: t) ↔
      before' = [] ∧ c = '-' ∧ t = after' ∧ BeginsWithDigit after' := by
    rw [dashAt_cons, or_iff_left]
    rintro ⟨ds, -, hds⟩
    exact h ds after' hds
  rw [IsLastDash, hfront, and_iff_left_iff_imp]
  intro _ before' after' hdash'
  rw [(hfront.1 hdash').1]
  exact Nat.zero_le _

/-- What is found behind a dash is found behind the last one that is followed by a digit. -/
theorem afterLastDash?_eq_some_iff : afterLastDash? t = some run ↔
    ∃ before after, IsLastDash before after t ∧ IsDottedFront run after := by
  induction t with
  | nil => exact ⟨nofun, fun ⟨_, _, h, _⟩ => absurd h.1 not_dashAt_nil⟩
  | cons c cs ih =>
    rw [afterLastDash?]
    cases hrest : afterLastDash? cs with
    | some found =>
      have hlater : ∃ ds rest, DashAt ds rest cs := by
        by_contra hno
        push Not at hno
        exact nomatch hrest.symm.trans (afterLastDash?_eq_none_iff.2 hno)
      rw [hrest] at ih
      simp only [ih, isLastDash_cons_of_later hlater]
      grind
    | none =>
      simp only [isLastDash_cons_of_none (afterLastDash?_eq_none_iff.1 hrest),
        Option.ite_none_right_eq_some, dottedStart?_eq_some_iff]
      constructor
      · rintro ⟨hc, hfront⟩
        exact ⟨[], cs, ⟨rfl, hc, rfl, exists_isDottedFront_iff.1 ⟨run, hfront⟩⟩, hfront⟩
      · rintro ⟨before, after, ⟨-, hc, rfl, -⟩, hfront⟩
        exact ⟨hc, hfront⟩

/-! ## Banners -/

/-- The words in front of a version. -/
def words : Banner → Text
  | afterDash => "version is "
  | afterName | wholeWord => "git version "

/-- Whether there may be a version behind the words of a banner. -/
def Opens (b : Banner) (rest : Text) : Prop :=
  match b with
  | afterDash => ∃ line before after, IsFront (· ≠ '\n') line rest ∧ DashAt before after line
  | afterName => BeginsWithDigit rest
  | wholeWord => ∃ c ∈ rest.head?, ¬isBlank c

/-- What counts as the version behind the words of a banner. -/
def Follows (b : Banner) (rest run : Text) : Prop :=
  match b with
  | afterDash => ∃ line before after, IsFront (· ≠ '\n') line rest ∧ IsLastDash before after line ∧
      IsDottedFront run after
  | afterName => IsDottedFront run rest
  | wholeWord => run ≠ [] ∧ IsFront (¬isBlank ·) run rest

/-- Whether a text announces a version: it stands behind the words of a banner, where these stand first
with what may be a version behind them. -/
def Announces (b : Banner) (t run : Text) : Prop :=
  ∃ before rest, t = before ++ (b.words ++ rest) ∧ b.Follows rest run ∧
    ∀ before' rest', t = before' ++ (b.words ++ rest') → b.Opens rest' → before.length ≤ before'.length

/-- What is read of a text behind the words of a banner. -/
def behind? (b : Banner) (rest : Text) : Option Text :=
  match b with
  | afterDash => afterLastDash? (rest.takeWhile (· ≠ '\n'))
  | afterName => dottedStart? rest
  | wholeWord =>
    match rest.takeWhile (!isBlank ·) with
    | [] => none
    | w => some w

theorem here?_eq (b : Banner) (t : Text) : b.here? t = (Text.after? b.words t).bind b.behind? := by
  cases b <;> rfl

theorem isFront_line {line rest : Text} :
    IsFront (· ≠ '\n') line rest ↔ rest.takeWhile (· ≠ '\n') = line := by
  simp [Text.takeWhile_eq_iff]

theorem isFront_word {word rest : Text} :
    IsFront (¬isBlank ·) word rest ↔ rest.takeWhile (!isBlank ·) = word := by
  simp [Text.takeWhile_eq_iff]

theorem behind?_eq_some_iff {rest : Text} : b.behind? rest = some run ↔ b.Follows rest run := by
  cases b with
  | afterDash =>
    refine afterLastDash?_eq_some_iff.trans ?_
    simp only [Follows, isFront_line, exists_and_left, exists_eq_left']
  | afterName => exact dottedStart?_eq_some_iff
  | wholeWord =>
    simp only [behind?, Follows, isFront_word]
    generalize rest.takeWhile (!isBlank ·) = word
    cases word with
    | nil => simp [eq_comm]
    | cons c cs => simp +contextual [eq_comm]

theorem opens_iff {rest : Text} : b.Opens rest ↔ ∃ run, b.Follows rest run := by
  cases b with
  | afterDash =>
    constructor
    · rintro ⟨line, before, after, hline, hdash⟩
      cases hlast : afterLastDash? line with
      | none => exact absurd hdash (afterLastDash?_eq_none_iff.1 hlast before after)
      | some run =>
        obtain ⟨before, after, h⟩ := afterLastDash?_eq_some_iff.1 hlast
        exact ⟨run, line, before, after, hline, h⟩
    · rintro ⟨run, line, before, after, hline, hdash, -⟩
      exact ⟨line, before, after, hline, hdash.1⟩
  | afterName => exact exists_isDottedFront_iff.symm
  | wholeWord =>
    simp only [Opens, Follows, isFront_word]
    cases rest with
    | nil => simp
    | cons c cs => by_cases hc : isBlank c <;> simp [hc]

theorem here?_eq_some_iff : b.here? t = some run ↔ ∃ rest, t = b.words ++ rest ∧ b.Follows rest run := by
  rw [here?_eq, Option.bind_eq_some_iff]
  simp only [Text.after?_eq_some_iff, behind?_eq_some_iff]

theorem here?_eq_none_iff : b.here? t = none ↔ ∀ rest, t = b.words ++ rest → ¬b.Opens rest := by
  simp only [Option.eq_none_iff_forall_ne_some, ne_eq, here?_eq_some_iff, opens_iff]
  grind

/-- The text that is found is the one that is announced. -/
theorem find?_eq_some_iff : b.find? t = some run ↔ b.Announces t run := by
  rw [find?, Text.findSome?_tails_eq_some_iff]
  constructor
  · rintro ⟨before, rest, rfl, hrest, hbefore⟩
    obtain ⟨rest, rfl, hfollows⟩ := here?_eq_some_iff.1 hrest
    refine ⟨before, rest, rfl, hfollows, fun before' rest' hsplit hopens => ?_⟩
    by_contra hlt
    exact here?_eq_none_iff.1 (hbefore before' _ hsplit (Nat.not_le.1 hlt)) rest' rfl hopens
  · rintro ⟨before, rest, rfl, hfollows, hfirst⟩
    refine ⟨before, _, rfl, here?_eq_some_iff.2 ⟨rest, rfl, hfollows⟩, ?_⟩
    intro before' rest' hsplit hlt
    refine here?_eq_none_iff.2 fun rest'' hrest hopens => ?_
    exact Nat.not_le.2 hlt (hfirst before' rest'' (hrest ▸ hsplit) hopens)

theorem Announces.unique {run' : Text} (h : b.Announces t run) (h' : b.Announces t run') : run = run' :=
  Option.some.inj ((find?_eq_some_iff.2 h).symm.trans (find?_eq_some_iff.2 h'))

/-- A version is announced as soon as there may be one behind the words of the banner anywhere. -/
theorem exists_announces_iff : (∃ run, b.Announces t run) ↔
    ∃ before rest, t = before ++ (b.words ++ rest) ∧ b.Opens rest := by
  constructor
  · rintro ⟨run, before, rest, ht, hfollows, -⟩
    exact ⟨before, rest, ht, opens_iff.2 ⟨run, hfollows⟩⟩
  · rintro ⟨before, rest, rfl, hopens⟩
    cases hfind : b.find? (before ++ (b.words ++ rest)) with
    | none =>
      have hnone := List.findSome?_eq_none_iff.1 hfind _ (Text.mem_tails_append before _)
      exact absurd hopens (here?_eq_none_iff.1 hnone rest rfl)
    | some run => exact ⟨run, find?_eq_some_iff.1 hfind⟩

/-- No blanks stand around a text that is announced. -/
theorem Announces.trim_eq (h : b.Announces t run) : run.trim = run := by
  obtain ⟨-, rest, -, hfollows, -⟩ := h
  cases b with
  | afterDash =>
    obtain ⟨-, -, after, -, -, ⟨d, rfl⟩, -⟩ := hfollows
    exact d.trim_written '.'
  | afterName =>
    obtain ⟨⟨d, rfl⟩, -⟩ := hfollows
    exact d.trim_written '.'
  | wholeWord =>
    obtain ⟨-, hsolid, -⟩ := hfollows
    exact Text.trim_eq_self (fun c hc => hsolid c (List.mem_of_mem_head? hc))
      fun c hc => hsolid c (List.mem_of_mem_getLast? hc)

/-! ## Versions -/

theorem version_of_find? (h : b.find? t = some run) :
    b.version t = match Version.parse run with
      | .ok v => v
      | .error _ => Version.oldest := by
  rw [version, version?, h, Option.bind_some]
  cases Version.parse run <;> rfl

/-- **Announced versions.** A text is announced exactly if there may be a version behind the words of
the banner anywhere, and no other is. If it is a dotted number with no run of digits that is too long, the
version is the one that it is read as. In every other case it is the oldest one. -/
theorem version_of_announced (b : Banner) (t : Text) :
    ((∃ run, b.Announces t run) ↔ ∃ before rest, t = before ++ (b.words ++ rest) ∧ b.Opens rest) ∧
      (∀ run run', b.Announces t run → b.Announces t run' → run = run') ∧
      (∀ (run : Text) (d : DigitRuns), b.Announces t run → d.written '.' = run → d.IsShort →
        Version.parse run = .ok (b.version t) ∧ b.version t = Version.ofParts d.numbers) ∧
      ((∀ (run : Text) (d : DigitRuns), b.Announces t run → d.written '.' = run → ¬d.IsShort) →
        b.version t = Version.oldest) := by
  refine ⟨exists_announces_iff, fun run run' => Announces.unique, ?_, fun hno => ?_⟩
  · rintro run d hrun rfl hshort
    have hparse := Version.parse_written d hshort
    have hversion := version_of_find? (find?_eq_some_iff.2 hrun)
    rw [hparse] at hversion
    exact ⟨hversion ▸ hparse, hversion⟩
  · cases hfind : b.find? t with
    | none => rw [version, version?, hfind]; rfl
    | some run =>
      have hrun := find?_eq_some_iff.1 hfind
      rw [version_of_find? hfind]
      cases hparse : Version.parse run with
      | error e => rfl
      | ok v =>
        obtain ⟨d, hd, hshort, -⟩ := Version.parse_eq_ok_iff.1 hparse
        exact absurd hshort (hno run d hrun (hd.trans hrun.trim_eq))

/-- The last dash of the line counts that is followed by a digit, and the number ends with its last
digit. -/
theorem version_of_announced_of_dashes :
    let t : Text := "tool version is 2-bk-7.3.1.ce for x-glibc\n9-9"
    afterDash.Announces t "7.3.1" ∧ afterDash.version t = Version.ofParts [7, 3, 1] := by
  intro t
  have hfind : afterDash.find? t = some "7.3.1" := by decide +kernel
  have hannounces := find?_eq_some_iff.1 hfind
  obtain ⟨-, -, hversion, -⟩ := version_of_announced afterDash t
  obtain ⟨-, hparts⟩ := hversion _ (DigitRuns.ofNats [7, 3, 1] (List.cons_ne_nil _ _)) hannounces
    (by decide) (by decide)
  rw [DigitRuns.numbers_ofNats] at hparts
  exact ⟨hannounces, hparts⟩

end Banner

end Annals

import Annals.Text.Case
import Mathlib.Algebra.Group.Nat.Defs

/-!
# Texts in lower case

A text in lower case stays as it is when it is put in lower case again (`lower_lower`), and neither case
map makes a dot of any other character (`dot_mem_lower`, `dot_mem_upper`). What a text begins with in
lower case, up to a dot, is told by the part before its first dot (`startsWith_lower`).

For the letters beyond ASCII these are facts about the tables of runs. That no letter is the lower-case
form of another and has one itself is seen on sets of code points, which are numbers with a bit for each
of their members.
-/

namespace Annals

/-! ## Runs of letters -/

section Runs

variable {runs : List CaseRun} {r : CaseRun} {n : Nat}

/-- The code points of a run. -/
def runPoints (r : CaseRun) : List Nat :=
  (List.range ((r.2.1 - r.1) / r.2.2.1 + 1)).map fun i => r.1 + i * r.2.2.1

/-- The counterparts of the code points of a run. -/
def movedPoints (r : CaseRun) : List Nat :=
  (runPoints r).map fun (n : Nat) => ((n : Int) + r.2.2.2).toNat

theorem mem_runPoints (hlow : r.1 ≤ n) (hhigh : n ≤ r.2.1) (hstep : (n - r.1) % r.2.2.1 = 0) :
    n ∈ runPoints r := by
  refine List.mem_map.2 ⟨(n - r.1) / r.2.2.1, List.mem_range.2 ?_, ?_⟩
  · have hle : (n - r.1) / r.2.2.1 ≤ (r.2.1 - r.1) / r.2.2.1 := Nat.div_le_div_right (by omega)
    omega
  · have hdiv := Nat.div_add_mod (n - r.1) r.2.2.1
    rw [Nat.mul_comm] at hdiv
    omega

theorem le_of_mem_movedPoints {low : Nat} (hlow : (low : Int) ≤ r.1 + r.2.2.2)
    (h : n ∈ movedPoints r) : low ≤ n := by
  obtain ⟨m, hm, rfl⟩ := List.mem_map.1 h
  obtain ⟨i, -, rfl⟩ := List.mem_map.1 hm
  generalize i * r.2.2.1 = k
  omega

/-- A code point with a counterpart stands in a run, and its counterpart among those of the run. -/
theorem mem_of_caseRun? {d : Char} (h : caseRun? runs n = some d) :
    ∃ r ∈ runs, n ∈ runPoints r ∧ ∃ m ∈ movedPoints r, d = Char.ofNat m := by
  obtain ⟨r, hr, rfl⟩ := Option.map_eq_some_iff.1 h
  have hspec := List.find?_some hr
  simp only [Bool.and_eq_true, decide_eq_true_eq, beq_iff_eq] at hspec
  have hn : n ∈ runPoints r := mem_runPoints hspec.1.1 hspec.1.2 hspec.2
  exact ⟨r, List.mem_of_find?_eq_some hr, hn, _, List.mem_map.2 ⟨n, hn, rfl⟩, rfl⟩

theorem caseRun?_eq_none (h : n ∉ runs.flatMap runPoints) : caseRun? runs n = none := by
  cases hrun : caseRun? runs n with
  | none => rfl
  | some d =>
    obtain ⟨r, hr, hn, -⟩ := mem_of_caseRun? hrun
    exact absurd (List.mem_flatMap.2 ⟨r, hr, hn⟩) h

end Runs

/-- A character is at its code point, or there is none. -/
theorem toNat_ofNat (n : Nat) : (Char.ofNat n).toNat = n ∨ Char.ofNat n = '\x00' := by
  by_cases hvalid : n.isValidChar
  · left
    rw [Char.ofNat, dif_pos hvalid]
    exact UInt32.toNat_ofNatLT
  · right
    rw [Char.ofNat, dif_neg hvalid]
    rfl

/-! ## Sets of code points -/

/-- A set of code points as the number with a bit for each of them. -/
def pointSet (ns : List Nat) : Nat := ns.foldr (fun n set => 2 ^ n ||| set) 0

theorem testBit_pointSet (ns : List Nat) (n : Nat) : (pointSet ns).testBit n = decide (n ∈ ns) := by
  induction ns with
  | nil => simp [pointSet]
  | cons m ns ih =>
    rw [pointSet, List.foldr_cons, ← pointSet, Nat.testBit_or, ih, Nat.testBit_two_pow]
    simp only [List.mem_cons, Bool.decide_or, eq_comm (a := n)]

theorem notMem_of_pointSet {ms ns : List Nat} (h : pointSet ms &&& pointSet ns = 0) {n : Nat}
    (hn : n ∈ ns) : n ∉ ms := by
  intro hm
  have hbit := congrArg (Nat.testBit · n) h
  simp [testBit_pointSet, hm, hn] at hbit

/-- The code points with a lower-case form other than themselves. -/
def capitals : List Nat := 0x130 :: lowerRuns.flatMap runPoints

/-- No lower-case form of a letter has a lower-case form other than itself. -/
theorem capitals_disjoint : pointSet capitals &&& pointSet (0 :: lowerRuns.flatMap movedPoints) = 0 := by
  decide +kernel

/-! ## Characters in lower case -/

/-- Whether a character is its own lower-case form, wherever it stands. -/
def IsLowered (c : Char) : Prop := c.toNat ≠ 0x130 ∧ caseRun? lowerRuns c.toNat = none

instance (c : Char) : Decidable (IsLowered c) := inferInstanceAs (Decidable (_ ∧ _))

theorem isLowered_of_notMem {c : Char} (h : c.toNat ∉ capitals) : IsLowered c :=
  ⟨fun heq => h (List.mem_cons.2 (.inl heq)),
    caseRun?_eq_none fun hmem => h (List.mem_cons_of_mem _ hmem)⟩

theorem lowerRuns_ascii : ∀ r ∈ lowerRuns, r.1 = 0x41 ∧ r.2.1 = 0x5A ∨ 0x80 ≤ r.1 := by
  decide +kernel

theorem toLower_ascii : ∀ n < 0x80,
    (Char.ofNat n).toLower =
      if 0x41 ≤ n ∧ n ≤ 0x5A then (caseRun? lowerRuns n).getD (Char.ofNat n) else Char.ofNat n := by
  decide +kernel

/-- The runs hold the letters of ASCII, too. -/
theorem lowerChar_eq (c : Char) : lowerChar c = (caseRun? lowerRuns c.toNat).getD c := by
  rw [lowerChar]
  split
  · next hascii =>
    have h := toLower_ascii c.toNat hascii
    rw [Char.ofNat_toNat] at h
    rw [h]
    split
    · rfl
    · next hcap =>
      have hnone : caseRun? lowerRuns c.toNat = none := by
        refine Option.map_eq_none_iff.2 (List.find?_eq_none.2 fun r hr hrun => ?_)
        simp only [Bool.and_eq_true, decide_eq_true_eq] at hrun
        rcases lowerRuns_ascii r hr with hcapitals | hbeyond <;> omega
      rw [hnone, Option.getD_none]
  · rfl

theorem IsLowered.lowerChar_eq {c : Char} (h : IsLowered c) : lowerChar c = c := by
  rw [Annals.lowerChar_eq, h.2, Option.getD_none]

theorem isLowered_lowerChar {c : Char} (h : c.toNat ≠ 0x130) : IsLowered (lowerChar c) := by
  rw [lowerChar_eq]
  cases hrun : caseRun? lowerRuns c.toNat with
  | none => exact ⟨h, hrun⟩
  | some d =>
    obtain ⟨r, hr, -, m, hm, rfl⟩ := mem_of_caseRun? hrun
    refine isLowered_of_notMem (notMem_of_pointSet capitals_disjoint (List.mem_cons.2 ?_))
    rcases toNat_ofNat m with hchar | hchar
    · exact .inr (by rw [Option.getD_some, hchar]; exact List.mem_flatMap.2 ⟨r, hr, hm⟩)
    · exact .inl (by rw [Option.getD_some, hchar]; rfl)

/-- Counterparts lie behind the capital A, in the runs of both cases. -/
theorem le_runs : ∀ r ∈ lowerRuns ++ upperRuns, ((0x41 : Nat) : Int) ≤ r.1 + r.2.2.2 := by
  decide +kernel

theorem ne_dot_of_caseRun? {runs : List CaseRun} (hruns : ∀ r ∈ runs, r ∈ lowerRuns ++ upperRuns)
    {n : Nat} {d : Char} (h : caseRun? runs n = some d) : d ≠ '.' := by
  obtain ⟨r, hr, -, m, hm, rfl⟩ := mem_of_caseRun? h
  have hle := le_of_mem_movedPoints (le_runs r (hruns r hr)) hm
  intro hdot
  rcases toNat_ofNat m with hchar | hchar
  · rw [hdot] at hchar
    exact absurd hle (by rw [← hchar]; decide)
  · exact absurd (hdot.symm.trans hchar) (by decide)

theorem lowerChar_eq_dot {c : Char} (h : lowerChar c = '.') : c = '.' := by
  rw [lowerChar_eq] at h
  cases hrun : caseRun? lowerRuns c.toNat with
  | none => rwa [hrun, Option.getD_none] at h
  | some d =>
    rw [hrun, Option.getD_some] at h
    exact absurd h (ne_dot_of_caseRun? (fun _ => List.mem_append_left _) hrun)

theorem toUpper_ascii : ∀ n < 0x80, (Char.ofNat n).toUpper = '.' → Char.ofNat n = '.' := by
  decide

theorem dot_notMem_upperExpansions : ∀ e ∈ upperExpansions, '.' ∉ e.2.map Char.ofNat := by
  decide +kernel

theorem dot_mem_upperOf {c : Char} (h : '.' ∈ upperOf c) : c = '.' := by
  rw [upperOf] at h
  split at h
  · next hascii =>
    have hdot := toUpper_ascii c.toNat hascii
    rw [Char.ofNat_toNat] at hdot
    exact hdot (List.mem_singleton.1 h).symm
  · split at h
    · next e he => exact absurd h (dot_notMem_upperExpansions e (List.mem_of_find?_eq_some he))
    · have hdot := (List.mem_singleton.1 h).symm
      cases hrun : caseRun? upperRuns c.toNat with
      | none => rwa [hrun, Option.getD_none] at hdot
      | some d =>
        rw [hrun, Option.getD_some] at hdot
        exact absurd hdot (ne_dot_of_caseRun? (fun _ => List.mem_append_right _) hrun)

/-! ## Texts -/

namespace Text

variable {before t : Text}

/-- The forms of the sigma and the parts of the dotted i are lower-case. -/
theorem isLowered_special : ∀ c ∈ ['\u03c2', '\u03c3', 'i', '\u0307', '.'], IsLowered c := by
  simp only [List.forall_mem_cons, List.not_mem_nil, false_implies, implies_true, and_true]
  decide +kernel

theorem not_isLowered_sigma {c : Char} (h : c.toNat = 0x3A3) : ¬IsLowered c := by
  intro hc
  have hnone : caseRun? lowerRuns 0x3A3 = none := h ▸ hc.2
  exact absurd hnone (by decide +kernel)

theorem isLowered_of_mem_lowerAfter {d : Char} (h : d ∈ lowerAfter before t) : IsLowered d := by
  induction t generalizing before with
  | nil => exact absurd h List.not_mem_nil
  | cons c cs ih =>
    rw [lowerAfter] at h
    split at h
    · rcases List.mem_cons.1 h with rfl | h
      · split
        · exact isLowered_special _ (by decide)
        · exact isLowered_special _ (by decide)
      · exact ih h
    · next hsigma =>
      split at h
      · rcases List.mem_cons.1 h with rfl | h
        · exact isLowered_special _ (by decide)
        · rcases List.mem_cons.1 h with rfl | h
          · exact isLowered_special _ (by decide)
          · exact ih h
      · next hdotted =>
        rcases List.mem_cons.1 h with rfl | h
        · exact isLowered_lowerChar (by simpa using hdotted)
        · exact ih h

theorem lowerAfter_of_isLowered (h : ∀ c ∈ t, IsLowered c) : lowerAfter before t = t := by
  induction t generalizing before with
  | nil => rfl
  | cons c cs ih =>
    have hc := h c List.mem_cons_self
    have hsigma : (c.toNat == 0x3A3) = false :=
      beq_eq_false_iff_ne.2 fun heq => not_isLowered_sigma heq hc
    have hdotted : (c.toNat == 0x130) = false := beq_eq_false_iff_ne.2 hc.1
    simp only [lowerAfter, hsigma, hdotted, Bool.false_eq_true, if_false, hc.lowerChar_eq,
      ih fun d hd => h d (List.mem_cons_of_mem c hd)]

/-- A text in lower case stays as it is. -/
theorem lower_lower (t : Text) : t.lower.lower = t.lower :=
  lowerAfter_of_isLowered fun _ => isLowered_of_mem_lowerAfter

theorem dot_mem_lowerAfter (h : '.' ∈ lowerAfter before t) : '.' ∈ t := by
  induction t generalizing before with
  | nil => exact h
  | cons c cs ih =>
    rw [lowerAfter] at h
    split at h
    · rcases List.mem_cons.1 h with hdot | h
      · exact absurd hdot (by split <;> decide)
      · exact List.mem_cons_of_mem c (ih h)
    · split at h
      · rcases List.mem_cons.1 h with hdot | h
        · exact absurd hdot (by decide)
        · rcases List.mem_cons.1 h with hdot | h
          · exact absurd hdot (by decide)
          · exact List.mem_cons_of_mem c (ih h)
      · rcases List.mem_cons.1 h with hdot | h
        · exact List.mem_cons.2 (.inl (lowerChar_eq_dot hdot.symm).symm)
        · exact List.mem_cons_of_mem c (ih h)

theorem dot_mem_lower (h : '.' ∈ t.lower) : '.' ∈ t := dot_mem_lowerAfter h

theorem dot_mem_upper (h : '.' ∈ t.upper) : '.' ∈ t := by
  obtain ⟨c, hc, hdot⟩ := List.mem_flatMap.1 h
  exact dot_mem_upperOf hdot ▸ hc

/-! ## What a text begins with -/

/-- A word that holds no dot and no small sigma, whose form may depend on what follows it. -/
def IsPlain (w : Text) : Prop := '.' ∉ w ∧ '\u03c2' ∉ w ∧ '\u03c3' ∉ w

instance (w : Text) : Decidable (IsPlain w) := inferInstanceAs (Decidable (_ ∧ _ ∧ _))

/-- Whether the plain words that a text begins with, up to a dot, are those that are another text. -/
def Opens (t start : Text) : Prop := ∀ w, IsPlain w → (startsWith (w ++ ['.']) t = true ↔ start = w)

theorem startsWith_cons (c d : Char) (s t : Text) :
    startsWith (c :: s) (d :: t) = true ↔ c = d ∧ startsWith s t = true := by
  by_cases h : c = d <;> simp [startsWith, after?, h]

theorem opens_dot (t : Text) : Opens ('.' :: t) [] := by
  intro w hw
  cases w with
  | nil => simp [startsWith, after?]
  | cons d w =>
    have hd : d ≠ '.' := fun heq => hw.1 (heq ▸ List.mem_cons_self)
    simp [startsWith_cons, hd]

theorem Opens.cons {c : Char} {start : Text} (hc : c ≠ '.') (h : Opens t start) :
    Opens (c :: t) (c :: start) := by
  intro w hw
  cases w with
  | nil => simp [startsWith_cons, hc.symm]
  | cons d w =>
    have hw' : IsPlain w := by
      obtain ⟨hdot, hfinal, hsigma⟩ := hw
      exact ⟨fun hmem => hdot (List.mem_cons_of_mem d hmem),
        fun hmem => hfinal (List.mem_cons_of_mem d hmem),
        fun hmem => hsigma (List.mem_cons_of_mem d hmem)⟩
    rw [List.cons_append, startsWith_cons, h w hw', List.cons.injEq, eq_comm (a := d)]

/-- Which of the two forms a sigma has does not matter to plain words. -/
theorem opens_sigma {c d : Char} (hc : c = '\u03c2' ∨ c = '\u03c3') (hd : d = '\u03c2' ∨ d = '\u03c3')
    (t start : Text) : Opens (c :: t) (d :: start) := by
  intro w hw
  cases w with
  | nil => rcases hc with rfl | rfl <;> simp [startsWith_cons]
  | cons e w =>
    have hfinal : e ≠ '\u03c2' := fun heq => hw.2.1 (heq ▸ List.mem_cons_self)
    have hsigma : e ≠ '\u03c3' := fun heq => hw.2.2 (heq ▸ List.mem_cons_self)
    rcases hc with rfl | rfl <;> rcases hd with rfl | rfl <;>
      simp [startsWith_cons, hfinal, hsigma, hfinal.symm, hsigma.symm]

theorem opens_lowerAfter {a : Text} (h : '.' ∉ a) (b before : Text) :
    Opens (lowerAfter before (a ++ '.' :: b)) (lowerAfter before a) := by
  induction a generalizing before with
  | nil =>
    have hdot : lowerAfter before ('.' :: b) = '.' :: lowerAfter ('.' :: before) b := rfl
    rw [List.nil_append, hdot]
    exact opens_dot _
  | cons c cs ih =>
    have hc : c ≠ '.' := fun heq => h (heq ▸ List.mem_cons_self)
    have hrest := ih (fun hmem => h (List.mem_cons_of_mem c hmem)) (c :: before)
    simp only [List.cons_append, lowerAfter]
    split
    · exact opens_sigma (by split <;> simp) (by split <;> simp) _ _
    · split
      · exact .cons (by decide) (.cons (by decide) hrest)
      · exact .cons (fun heq => hc (lowerChar_eq_dot heq)) hrest

/-- Whether a text begins in lower case with a plain word and a dot is told by the part before its first
dot. -/
theorem startsWith_lower {a w : Text} (ha : '.' ∉ a) (hw : IsPlain w) (b : Text) :
    startsWith (w ++ ['.']) (lower (a ++ '.' :: b)) = true ↔ a.lower = w :=
  opens_lowerAfter ha b [] w hw

end Text

end Annals

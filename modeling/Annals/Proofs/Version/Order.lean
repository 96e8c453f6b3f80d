import Annals.Proofs.Version.NormalForm
import Annals.Version.Gate
import Mathlib

/-!
# The order of versions

Missing numbers of a version count as zero: versions are ordered as the sequences of their numbers with
infinitely many zeros behind them, first difference first (`padded`). Versions keep no zeros at their end,
and for numbers without such zeros that order is the one of lists (`padded_lt_of_lt`), which is how
versions are compared. So zeros at the end of a text do not matter, and a gate opens by the padded order
(`parse_ordered`).
-/

namespace Annals

/-! ## Zeros at the end -/

theorem exists_zeros (ps : List Int) : ∃ n, ps = dropTrailingZeros ps ++ List.replicate n 0 := by
  cases ps with
  | nil => exact ⟨0, rfl⟩
  | cons p ps =>
    obtain ⟨n, hzeros⟩ : ∃ n, ps.rtakeWhile (· == 0) = List.replicate n 0 :=
      ⟨_, List.eq_replicate_of_mem fun q hq => by simpa using List.mem_rtakeWhile_imp hq⟩
    refine ⟨n, ?_⟩
    rw [dropTrailingZeros, dropEndWhile_eq_rdropWhile, ← hzeros, List.cons_append,
      List.rdropWhile_append_rtakeWhile]

theorem dropTrailingZeros_append_zeros {ps : List Int} (hne : ps ≠ []) (n : Nat) :
    dropTrailingZeros (ps ++ List.replicate n 0) = dropTrailingZeros ps := by
  cases ps with
  | nil => contradiction
  | cons p ps =>
    refine congrArg (p :: ·) (dropEndWhile_append ps fun q hq => ?_)
    rw [List.eq_of_mem_replicate hq]
    rfl

/-! ## Padded numbers -/

/-- The numbers with infinitely many zeros behind them, ordered by the first that differs. -/
def padded (ps : List Int) : Lex (Nat → Int) := toLex fun i => ps.getD i 0

theorem padded_lt_iff {ps qs : List Int} : padded ps < padded qs ↔
    ∃ i, (∀ j < i, ps.getD j 0 = qs.getD j 0) ∧ ps.getD i 0 < qs.getD i 0 :=
  Iff.rfl

theorem padded_append_zeros (ps : List Int) (n : Nat) :
    padded (ps ++ List.replicate n 0) = padded ps := by
  refine congrArg toLex (funext fun i => ?_)
  simp only [List.getD_eq_getElem?_getD, List.getElem?_append, List.getElem?_replicate]
  split
  · rfl
  · split <;> simp_all

theorem padded_dropTrailingZeros (ps : List Int) : padded (dropTrailingZeros ps) = padded ps := by
  obtain ⟨n, hzeros⟩ := exists_zeros ps
  conv_rhs => rw [hzeros, padded_append_zeros]

theorem padded_cons_lt {p q : Int} (h : p < q) (ps qs : List Int) :
    padded (p :: ps) < padded (q :: qs) :=
  padded_lt_iff.2 ⟨0, nofun, h⟩

theorem padded_cons_lt_cons (p : Int) {ps qs : List Int} (h : padded ps < padded qs) :
    padded (p :: ps) < padded (p :: qs) := by
  obtain ⟨i, hbefore, hi⟩ := padded_lt_iff.1 h
  refine padded_lt_iff.2 ⟨i + 1, fun j hj => ?_, hi⟩
  cases j with
  | zero => rfl
  | succ j => exact hbefore j (Nat.lt_of_succ_lt_succ hj)

/-- Natural numbers that do not end in zero are more than none. -/
theorem padded_nil_lt {qs : List Int} (hne : qs ≠ []) (hnat : ∀ q ∈ qs, 0 ≤ q)
    (hlast : qs.getLast? ≠ some 0) : padded [] < padded qs := by
  induction qs with
  | nil => contradiction
  | cons q qs ih =>
    obtain ⟨hq, hqs⟩ := List.forall_mem_cons.1 hnat
    rcases hq.lt_or_eq with hpos | rfl
    · exact padded_lt_iff.2 ⟨0, nofun, hpos⟩
    · -- the first number that is not zero comes later
      have hrest : qs ≠ [] := by
        rintro rfl
        exact hlast rfl
      rw [List.getLast?_cons_of_ne_nil hrest] at hlast
      rw [← padded_append_zeros [] 1]
      exact padded_cons_lt_cons 0 (ih hrest hqs hlast)

/-- Natural numbers are not less than none. -/
theorem padded_nil_le {ps : List Int} (hps : ∀ p ∈ ps, 0 ≤ p) : padded [] ≤ padded ps := by
  refine not_lt.1 fun hlt => ?_
  obtain ⟨i, -, hi⟩ := padded_lt_iff.1 hlt
  rcases Nat.lt_or_ge i ps.length with hlen | hlen
  · rw [List.getD_eq_getElem _ _ hlen] at hi
    exact absurd hi (not_lt.2 (hps _ (List.getElem_mem hlen)))
  · rw [List.getD_eq_default _ _ hlen] at hi
    exact absurd hi (lt_irrefl 0)

/-- The order of lists is that of padded numbers, if the greater list has no zero at its end. -/
theorem padded_lt_of_lt {ps qs : List Int} (h : ps < qs) (hqs : ∀ q ∈ qs, 0 ≤ q)
    (hlast : qs.getLast? ≠ some 0) : padded ps < padded qs := by
  induction h with
  | nil => exact padded_nil_lt (List.cons_ne_nil _ _) hqs hlast
  | rel hpq => exact padded_cons_lt hpq _ _
  | cons hrest ih =>
    rename_i p ps qs
    have hne : qs ≠ [] := by
      rintro rfl
      exact List.not_lex_nil hrest
    rw [List.getLast?_cons_of_ne_nil hne] at hlast
    exact padded_cons_lt_cons p (ih (List.forall_mem_cons.1 hqs).2 hlast)

namespace DigitRuns

variable (d : DigitRuns)

/-- The runs with single zeros behind them. -/
def withZeros (n : Nat) : DigitRuns where
  runs := d.runs ++ List.replicate n ['0']
  runs_ne_nil := List.append_ne_nil_of_left_ne_nil d.runs_ne_nil _
  nil_notMem hmem := by
    rcases List.mem_append.1 hmem with hmem | hmem
    · exact d.nil_notMem hmem
    · exact absurd (List.eq_of_mem_replicate hmem) (by decide)
  digits run hrun c hc := by
    rcases List.mem_append.1 hrun with hrun | hrun
    · exact d.digits run hrun c hc
    · rw [List.eq_of_mem_replicate hrun] at hc
      rw [List.mem_singleton.1 hc]
      rfl

theorem written_withZeros (sep : Char) (n : Nat) :
    (d.withZeros n).written sep = d.written sep ++ (List.replicate n [sep, '0']).flatten := by
  obtain ⟨run, runs, hruns⟩ := List.exists_cons_of_ne_nil d.runs_ne_nil
  change Text.join [sep] (d.runs ++ List.replicate n ['0']) = Text.join [sep] d.runs ++ _
  rw [hruns, List.cons_append, Text.join_cons, Text.join_cons, List.flatMap_append, List.append_assoc,
    List.flatMap_replicate]

theorem numbers_withZeros (n : Nat) : (d.withZeros n).numbers = d.numbers ++ List.replicate n 0 := by
  rw [numbers, withZeros, List.map_append, List.map_replicate]
  rfl

theorem isShort_withZeros (h : d.IsShort) (n : Nat) : (d.withZeros n).IsShort := by
  intro run hrun
  rcases List.mem_append.1 hrun with hrun | hrun
  · exact h run hrun
  · rw [List.eq_of_mem_replicate hrun]
    decide

end DigitRuns

namespace Version

/-! ## Versions -/

/-- A version of one or more natural numbers. -/
def IsCounted (v : Version) : Prop := v.parts ≠ [] ∧ ∀ p ∈ v.parts, 0 ≤ p

section Compared

variable {v w : Version}

/-- The order of versions is that of their padded numbers. -/
theorem padded_lt_of_version_lt (hv : v.parts ≠ []) (hw : ∀ p ∈ w.parts, 0 ≤ p) (h : v < w) :
    padded v.parts < padded w.parts := by
  obtain ⟨ps, hps⟩ := v
  obtain ⟨qs, hqs⟩ := w
  cases ps with
  | nil => contradiction
  | cons p ps =>
    cases qs with
    | nil => exact absurd h (List.not_lt_nil _)
    | cons q qs =>
      have htail : dropEndWhile (· == 0) qs = qs := (List.cons.inj hqs).2
      have hlast : qs.getLast? ≠ some 0 := by
        rw [← htail]
        exact fun hzero => not_of_mem_getLast?_dropEndWhile hzero rfl
      cases h with
      | rel hpq => exact padded_cons_lt hpq ps qs
      | cons hrest =>
        exact padded_cons_lt_cons p (padded_lt_of_lt hrest (List.forall_mem_cons.1 hw).2 hlast)

theorem le_iff_padded (hv : ∀ p ∈ v.parts, 0 ≤ p) (hne : w.parts ≠ []) (hw : ∀ p ∈ w.parts, 0 ≤ p) :
    v ≤ w ↔ padded v.parts ≤ padded w.parts := by
  constructor
  · intro h
    by_cases hnil : v.parts = []
    · rw [hnil]
      exact padded_nil_le hw
    · rcases lt_trichotomy v.parts w.parts with hlt | heq | hgt
      · exact (padded_lt_of_version_lt hnil hw hlt).le
      · rw [heq]
      · exact absurd hgt h
  · intro h hlt
    exact absurd (padded_lt_of_version_lt hne hv hlt) (not_lt.2 h)

theorem lt_iff_padded (hv : v.IsCounted) (hw : w.IsCounted) :
    v < w ↔ padded v.parts < padded w.parts := by
  have hle : w ≤ v ↔ padded w.parts ≤ padded v.parts := le_iff_padded hw.2 hv.1 hv.2
  exact not_not.symm.trans ((not_congr hle).trans not_le)

theorem eq_iff_padded (hv : v.IsCounted) (hw : w.IsCounted) :
    v = w ↔ padded v.parts = padded w.parts := by
  refine ⟨fun h => h ▸ rfl, fun h => ext_parts (List.le_antisymm ?_ ?_)⟩
  · exact (le_iff_padded hv.2 hw.1 hw.2).2 h.le
  · exact (le_iff_padded hw.2 hv.1 hv.2).2 h.ge

end Compared

/-! ## Texts -/

/-- The numbers that a text writes between its dots, blanks around it apart. -/
def numbersOf (t : Text) : List Int :=
  (Text.fields '.' t.trim).map fun run => (Text.digitsValue run : Int)

theorem isCounted_of_parse {t : Text} {v : Version} (h : parse t = .ok v) : v.IsCounted := by
  obtain ⟨ns, hne, hparts, -⟩ := exists_nats_of_parse h
  refine ⟨fun hnil => hne (List.map_eq_nil_iff.1 (hparts.symm.trans hnil)), fun p hp => ?_⟩
  rw [hparts] at hp
  obtain ⟨n, -, rfl⟩ := List.mem_map.1 hp
  exact Int.natCast_nonneg n

/-- The numbers of a version are, but for zeros at the end, those of a text that it was read from. -/
theorem padded_parts_of_parse {t : Text} {v : Version} (h : parse t = .ok v) :
    padded v.parts = padded (numbersOf t) := by
  obtain ⟨d, hd, -, rfl⟩ := parse_eq_ok_iff.1 h
  rw [numbersOf, ← hd, d.fields_written (by decide)]
  exact padded_dropTrailingZeros d.numbers

/-- A dot and a zero, a number of times. -/
def zeros (n : Nat) : Text := (List.replicate n ['.', '0']).flatten

theorem parse_append_zeros {t : Text} {v : Version} (h : parse t = .ok v) (n : Nat) :
    parse (t.trim ++ zeros n) = .ok v := by
  obtain ⟨d, hd, hshort, rfl⟩ := parse_eq_ok_iff.1 h
  have hwritten : (d.withZeros n).written '.' = t.trim ++ zeros n := by
    rw [d.written_withZeros, hd]
    rfl
  rw [← hwritten, parse_written _ (d.isShort_withZeros hshort n), d.numbers_withZeros]
  exact congrArg Except.ok (ext_parts (dropTrailingZeros_append_zeros d.numbers_ne_nil n))

end Version

/-! ## Gates -/

theorem Banner.exists_parse_version (b : Banner) (t : Text) :
    ∃ u, Version.parse u = .ok (b.version t) := by
  rw [Banner.version]
  cases h : b.version? t with
  | none => exact ⟨"0", rfl⟩
  | some v =>
    obtain ⟨u, -, hu⟩ := Option.bind_eq_some_iff.1 h
    refine ⟨u, ?_⟩
    cases hparse : Version.parse u with
    | error e => rw [hparse] at hu; contradiction
    | ok w => rw [hparse] at hu; exact congrArg Except.ok (Option.some.inj hu)

namespace ToolStatus

variable {threshold : Version}

theorem isCounted_version (b : Banner) (output? : Option Text) :
    (ofOutput b output?).version.IsCounted := by
  cases output? with
  | none => exact Version.isCounted_of_parse (t := "0") rfl
  | some t =>
    obtain ⟨u, hu⟩ := b.exists_parse_version t
    exact Version.isCounted_of_parse hu

theorem select_of_le {s : ToolStatus} (h : threshold ≤ s.version) (new old : Text) :
    s.select threshold new old = new :=
  if_pos (decide_eq_true h)

theorem select_of_not_le {s : ToolStatus} (h : ¬threshold ≤ s.version) (new old : Text) :
    s.select threshold new old = old :=
  if_neg (by simpa [supports] using h)

/-- The new format is chosen from the threshold on. -/
theorem select_padded (hthreshold : ∀ p ∈ threshold.parts, 0 ≤ p) (b : Banner) (output? : Option Text)
    (new old : Text) :
    let s := ofOutput b output?
    (padded threshold.parts ≤ padded s.version.parts → s.select threshold new old = new) ∧
      (padded s.version.parts < padded threshold.parts → s.select threshold new old = old) := by
  intro s
  obtain ⟨hne, hnat⟩ := isCounted_version b output?
  have hle : threshold ≤ s.version ↔ padded threshold.parts ≤ padded s.version.parts :=
    Version.le_iff_padded hthreshold hne hnat
  exact ⟨fun h => select_of_le (hle.2 h) new old,
    fun h => select_of_not_le (fun h' => not_lt.2 (hle.1 h') h) new old⟩

/-- A tool of a later version does not go back to the old format. -/
theorem select_mono {s s' : ToolStatus} (h : s.version ≤ s'.version) {new old : Text}
    (hnew : s.select threshold new old = new) : s'.select threshold new old = new := by
  by_cases hle : threshold ≤ s.version
  · exact select_of_le (List.le_trans hle h) new old
  · rw [select_of_not_le hle] at hnew
    subst hnew
    exact ite_self _

end ToolStatus

namespace Version

/-- **The order of versions.** Versions that were read compare as the numbers of their texts with
infinitely many zeros behind them. The order is total, and dots and zeros behind a text change nothing.
A gate chooses the new format from its threshold of natural numbers on in that order, so also for all later
versions. -/
theorem parse_ordered {a b : Text} {v w : Version} (ha : parse a = .ok v) (hb : parse b = .ok w) :
    ((v < w ↔ padded (numbersOf a) < padded (numbersOf b)) ∧
        (v ≤ w ↔ padded (numbersOf a) ≤ padded (numbersOf b)) ∧
        (v = w ↔ padded (numbersOf a) = padded (numbersOf b)) ∧
        (v ≥ w ↔ padded (numbersOf a) ≥ padded (numbersOf b)) ∧
        (v > w ↔ padded (numbersOf a) > padded (numbersOf b))) ∧
      (v ≤ w ∨ w ≤ v) ∧
      (∀ n, parse (a.trim ++ zeros n) = .ok v ∧ parse (b.trim ++ zeros n) = .ok w) ∧
      ∀ threshold : Version, (∀ p ∈ threshold.parts, 0 ≤ p) →
        (∀ (banner : Banner) (output? : Option Text) (new old : Text),
          let s := ToolStatus.ofOutput banner output?
          (padded threshold.parts ≤ padded s.version.parts → s.select threshold new old = new) ∧
            (padded s.version.parts < padded threshold.parts → s.select threshold new old = old)) ∧
        ∀ (s s' : ToolStatus) (new old : Text), s.version ≤ s'.version →
          s.select threshold new old = new → s'.select threshold new old = new := by
  have hv := isCounted_of_parse ha
  have hw := isCounted_of_parse hb
  rw [← padded_parts_of_parse ha, ← padded_parts_of_parse hb]
  refine ⟨⟨lt_iff_padded hv hw, le_iff_padded hv.2 hw.1 hw.2, eq_iff_padded hv hw,
    le_iff_padded hw.2 hv.1 hv.2, lt_iff_padded hw hv⟩, List.le_total _ _, fun n => ?_,
    fun threshold hthreshold => ⟨?_, fun s s' new old h => ToolStatus.select_mono h⟩⟩
  · exact ⟨parse_append_zeros ha n, parse_append_zeros hb n⟩
  · exact ToolStatus.select_padded hthreshold

/-- Numbers count as such, and zeros at the end do not. -/
theorem parse_ordered_of_two : ∃ v w, parse "7.3.0" = .ok v ∧ parse "7.10" = .ok w ∧ v < w ∧
    parse ("7.3.0" ++ zeros 2) = .ok v := by
  have ha : parse "7.3.0" = .ok (ofParts [7, 3]) := by rfl
  have hb : parse "7.10" = .ok (ofParts [7, 10]) := by rfl
  obtain ⟨⟨hlt, -⟩, -, hzeros, -⟩ := parse_ordered ha hb
  refine ⟨_, _, ha, hb, hlt.2 ?_, (hzeros 2).1⟩
  exact padded_lt_iff.2 ⟨1, by decide, by decide⟩

end Version

end Annals

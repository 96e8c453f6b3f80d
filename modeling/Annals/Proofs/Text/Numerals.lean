import Annals.Proofs.Text.Digits
import Annals.Proofs.Text.Fields

/-!
# Runs of digits

Numbers are written in runs of digits with a separator between any two runs (`DigitRuns`). Whether a text
is written so can be told from its fields (`inRuns_iff`) and, character by character, from its front
(`inRuns_cons`, `inRuns_sep`). The digits of a natural number give it back (`digitsValue_ofNat`), and the
value of a run is written with no more digits than the run has (`length_ofNat_digitsValue`).

`Writes` is the grammar of written integers: runs of digits with single underscores between them, behind
at most one sign and between blanks. What is read is what it says (`readInt?_eq_some_iff`).
-/

namespace Annals

/-! ## Digits -/

/-- A digit stands in one of the runs of ten that the table lists. -/
theorem exists_first_of_digitValue? {c : Char} {d : Nat} (h : digitValue? c = some d) :
    ∃ first ∈ digitZeros, first ≤ c.toNat ∧ c.toNat < first + 10 ∧ d = c.toNat - first := by
  rw [digitValue?] at h
  split at h
  · split at h
    · next hrange =>
      simp only [Bool.and_eq_true, decide_eq_true_eq] at hrange
      exact ⟨0x30, by decide, hrange.1, by omega, (Option.some.inj h).symm⟩
    · contradiction
  · obtain ⟨first, hfind, rfl⟩ := Option.map_eq_some_iff.1 h
    have hrange := List.find?_some hfind
    simp only [Bool.and_eq_true, decide_eq_true_eq] at hrange
    exact ⟨first, List.mem_of_find?_eq_some hfind, hrange.1, hrange.2, rfl⟩

theorem digitValue?_getD_lt (c : Char) : (digitValue? c).getD 0 < 10 := by
  cases h : digitValue? c with
  | none => decide
  | some d =>
    obtain ⟨first, -, hlow, hhigh, rfl⟩ := exists_first_of_digitValue? h
    rw [Option.getD_some]
    omega

theorem digitValue?_eq_of_isDigit {c : Char} (h : c.isDigit = true) :
    digitValue? c = some (c.toNat - 48) := by
  simp only [Char.isDigit, Bool.and_eq_true, decide_eq_true_eq, ge_iff_le, UInt32.le_iff_toNat_le] at h
  have hlow : 48 ≤ c.toNat := h.1
  have hhigh : c.toNat ≤ 57 := h.2
  rw [digitValue?, if_pos (by omega), if_pos (by simp; omega)]

theorem isDigit_of_isDigit {c : Char} (h : c.isDigit = true) : isDigit c = true := by
  rw [isDigit, digitValue?_eq_of_isDigit h]
  rfl

/-- The blanks, in runs from a first position to a last one. -/
def blankRuns : List (Nat × Nat) :=
  [(0x09, 0x0D), (0x1C, 0x20), (0x85, 0x85), (0xA0, 0xA0), (0x1680, 0x1680), (0x2000, 0x200A),
    (0x2028, 0x2029), (0x202F, 0x202F), (0x205F, 0x205F), (0x3000, 0x3000)]

theorem exists_blankRun {c : Char} (h : isBlank c = true) :
    ∃ r ∈ blankRuns, r.1 ≤ c.toNat ∧ c.toNat ≤ r.2 := by
  simp only [isBlank, Bool.or_eq_true, Bool.and_eq_true, decide_eq_true_eq, beq_iff_eq] at h
  simp only [blankRuns, List.mem_cons, exists_eq_or_imp, List.not_mem_nil, false_and, exists_false]
  omega

theorem blankRuns_apart : ∀ r ∈ blankRuns, ∀ first ∈ digitZeros, r.2 < first ∨ first + 10 ≤ r.1 := by
  decide

/-- No digit of any script is blank. -/
theorem not_isBlank_of_digit {c : Char} (h : isDigit c = true) : ¬isBlank c := by
  intro hblank
  obtain ⟨d, hd⟩ := Option.isSome_iff_exists.1 h
  obtain ⟨first, hmem, hlow, hhigh, -⟩ := exists_first_of_digitValue? hd
  obtain ⟨r, hr, hfirst, hlast⟩ := exists_blankRun hblank
  rcases blankRuns_apart r hr first hmem with hbefore | hbehind
  · omega
  · omega

theorem isBlank_of_isNumberBlank {c : Char} (h : Text.isNumberBlank c = true) : isBlank c = true := by
  simp only [Text.isNumberBlank, Bool.or_eq_true, Bool.and_eq_true, decide_eq_true_eq,
    beq_iff_eq] at h
  simp only [isBlank, Bool.or_eq_true, Bool.and_eq_true, decide_eq_true_eq, beq_iff_eq]
  omega

/-! ## Runs -/

/-- One or more runs of one or more digits. -/
structure DigitRuns where
  runs : List Text
  runs_ne_nil : runs ≠ []
  nil_notMem : [] ∉ runs
  digits : ∀ run ∈ runs, ∀ c ∈ run, isDigit c = true

namespace DigitRuns

/-- The runs with a separator between any two. -/
def written (d : DigitRuns) (sep : Char) : Text := Text.join [sep] d.runs

/-- All digits, without separators. -/
def allDigits (d : DigitRuns) : Text := d.runs.flatten

/-- No run has more digits than a number may be written with. -/
def IsShort (d : DigitRuns) : Prop := ∀ run ∈ d.runs, run.length ≤ maxDigits

instance (d : DigitRuns) : Decidable d.IsShort := inferInstanceAs (Decidable (∀ run ∈ d.runs, _))

variable (d : DigitRuns) (sep : Char)

theorem run_ne_nil {run : Text} (h : run ∈ d.runs) : run ≠ [] := fun hnil => d.nil_notMem (hnil ▸ h)

/-- What is written begins with the first run. -/
theorem exists_written : ∃ run ∈ d.runs, ∃ behind, d.written sep = run ++ behind := by
  obtain ⟨run, runs, hruns⟩ := List.exists_cons_of_ne_nil d.runs_ne_nil
  exact ⟨run, hruns ▸ List.mem_cons_self, _, by rw [written, hruns, Text.join_cons]⟩

theorem written_ne_nil : d.written sep ≠ [] := by
  obtain ⟨run, hrun, behind, hwritten⟩ := d.exists_written sep
  rw [hwritten]
  exact List.append_ne_nil_of_left_ne_nil (d.run_ne_nil hrun) behind

/-- What is written begins with a digit. -/
theorem isDigit_head : ∀ c ∈ (d.written sep).head?, isDigit c = true := by
  intro c hc
  obtain ⟨run, hrun, behind, hwritten⟩ := d.exists_written sep
  rw [hwritten, List.head?_append_of_ne_nil _ (d.run_ne_nil hrun)] at hc
  exact d.digits run hrun c (List.mem_of_mem_head? hc)

/-- What is written ends with a digit. -/
theorem isDigit_getLast : ∀ c ∈ (d.written sep).getLast?, isDigit c = true := by
  intro c hc
  obtain ⟨before, hjoin⟩ := Text.exists_join_getLast d.runs_ne_nil [sep]
  have hmem := List.getLast_mem d.runs_ne_nil
  rw [written, hjoin, List.getLast?_append_of_ne_nil _ (d.run_ne_nil hmem)] at hc
  exact d.digits _ hmem c (List.mem_of_mem_getLast? hc)

variable {sep} in
theorem fields_written (hsep : isDigit sep = false) : Text.fields sep (d.written sep) = d.runs := by
  refine Text.fields_join d.runs_ne_nil fun run hrun hmem => ?_
  have hdigit := d.digits run hrun sep hmem
  rw [hsep] at hdigit
  contradiction

end DigitRuns

namespace Text

section Runs

variable {sep c d : Char} {t : Text}

/-- Whether every field of a text is one or more digits. -/
def inRuns (sep : Char) (t : Text) : Bool := (fields sep t).all fun run => !run.isEmpty && run.all isDigit

theorem inRuns_written (runs : DigitRuns) (hsep : isDigit sep = false) :
    inRuns sep (runs.written sep) = true := by
  have hall : ∀ run ∈ runs.runs, run ≠ [] ∧ ∀ c ∈ run, isDigit c = true := fun run hrun =>
    ⟨runs.run_ne_nil hrun, runs.digits run hrun⟩
  rw [inRuns, runs.fields_written hsep]
  simpa using hall

theorem inRuns_iff (hsep : isDigit sep = false) :
    inRuns sep t = true ↔ ∃ runs : DigitRuns, runs.written sep = t := by
  constructor
  · intro h
    have hfields : ∀ run ∈ fields sep t, run ≠ [] ∧ ∀ c ∈ run, isDigit c = true := by
      simpa [inRuns] using h
    have hnil : [] ∉ fields sep t := fun hmem => (hfields [] hmem).1 rfl
    exact ⟨⟨fields sep t, fields_ne_nil sep t, hnil, fun run hrun => (hfields run hrun).2⟩,
      join_fields sep t⟩
  · rintro ⟨runs, rfl⟩
    exact inRuns_written runs hsep

theorem ne_of_isDigit (hsep : isDigit sep = false) (hc : isDigit c = true) : c ≠ sep := by
  rintro rfl
  rw [hsep] at hc
  contradiction

theorem inRuns_singleton (hsep : isDigit sep = false) : inRuns sep [c] = isDigit c := by
  by_cases hc : c = sep
  · subst hc
    simp [inRuns, fields, hsep]
  · simp [inRuns, fields, hc]

/-- A text in runs begins with a digit. -/
theorem inRuns_of_not_isDigit (hc : ¬isDigit c = true) (t : Text) : inRuns sep (c :: t) = false := by
  by_cases hsep : c = sep
  · subst hsep
    rw [inRuns, fields_sep_cons]
    rfl
  · obtain ⟨f, fs, -, hcons⟩ := exists_fields_cons hsep t
    simp [inRuns, hcons, hc]

theorem exists_digit_of_inRuns (h : inRuns sep t = true) : ∃ c u, t = c :: u ∧ isDigit c = true := by
  cases t with
  | nil => contradiction
  | cons c u =>
    refine ⟨c, u, rfl, ?_⟩
    by_contra hc
    exact nomatch (inRuns_of_not_isDigit hc u).symm.trans h

theorem inRuns_sep (hsep : isDigit sep = false) (hc : isDigit c = true) :
    inRuns sep (c :: sep :: t) = inRuns sep t := by
  rw [inRuns, fields, if_neg (ne_of_isDigit hsep hc), fields_sep_cons]
  simp [inRuns, hc]

theorem inRuns_cons (hsep : isDigit sep = false) (hc : isDigit c = true) (hd : d ≠ sep) :
    inRuns sep (c :: d :: t) = inRuns sep (d :: t) := by
  obtain ⟨f, fs, -, hcons⟩ := exists_fields_cons hd t
  rw [inRuns, inRuns, fields, if_neg (ne_of_isDigit hsep hc), hcons]
  simp [hc]

end Runs

/-! ## Values -/

theorem digitsValue_concat (t : Text) (c : Char) :
    digitsValue (t ++ [c]) = 10 * digitsValue t + (digitValue? c).getD 0 :=
  List.foldl_concat _ _ _ _

theorem digitsValue_lt (t : Text) : digitsValue t < 10 ^ t.length := by
  induction t using List.reverseRecOn with
  | nil => exact Nat.one_pos
  | append_singleton t c ih =>
    have hc := digitValue?_getD_lt c
    rw [digitsValue_concat, List.length_append, List.length_singleton, Nat.pow_succ]
    omega

theorem isDigit_of_mem_ofNat {n : Nat} {c : Char} (h : c ∈ ofNat n) : c.isDigit = true :=
  Nat.isDigit_of_mem_toDigits (by decide) (by decide) h

theorem digitsValue_ofNat (n : Nat) : digitsValue (ofNat n) = n := by
  have hvalue : digitsValue (ofNat n) = Nat.ofDigitChars 10 (ofNat n) 0 := by
    refine List.foldl_ext _ _ _ fun m c hc => ?_
    rw [digitValue?_eq_of_isDigit (isDigit_of_mem_ofNat hc)]
    rfl
  rw [hvalue, ofNat, Nat.ofDigitChars_ten_toDigits]

theorem length_ofNat_digitsValue {t : Text} (h : t ≠ []) : (ofNat (digitsValue t)).length ≤ t.length :=
  (Nat.length_toDigits_le_iff (by decide) (List.length_pos_of_ne_nil h)).2 (digitsValue_lt t)

/-! ## Integers -/

/-- A number behind a sign, or behind none. -/
inductive Signed (m : Nat) : Text → Int → Prop
  | plain : Signed m [] m
  | plus : Signed m ['+'] m
  | minus : Signed m ['-'] (-m)

/-- Whether a text writes an integer: runs of digits, not too many to be read, with single underscores
between them, behind at most one sign and between blanks. -/
def Writes (t : Text) (n : Int) : Prop :=
  ∃ (before sign after : Text) (runs : DigitRuns),
    t = before ++ (sign ++ runs.written '_') ++ after ∧
      (∀ c ∈ before, isNumberBlank c = true) ∧ (∀ c ∈ after, isNumberBlank c = true) ∧
      runs.allDigits.length ≤ maxDigits ∧ Signed runs.allDigits.digitsValue sign n

theorem flatten_fields_cons {sep c : Char} (hc : c ≠ sep) (t : Text) :
    (fields sep (c :: t)).flatten = c :: (fields sep t).flatten := by
  obtain ⟨f, fs, hf, hcons⟩ := exists_fields_cons hc t
  rw [hcons, hf]
  rfl

theorem digitsOnly?_eq_some_iff {t ds : Text} :
    digitsOnly? t = some ds ↔ inRuns '_' t = true ∧ (fields '_' t).flatten = ds := by
  have hsep : isDigit '_' = false := by decide
  fun_induction digitsOnly? t generalizing ds with
  | case1 => exact ⟨nofun, fun h => nomatch h.1⟩
  | case2 c hc =>
    rw [inRuns_singleton hsep, flatten_fields_cons (ne_of_isDigit hsep hc)]
    simp [hc, fields]
  | case3 c hc => simp [inRuns_of_not_isDigit hc]
  | case4 c cs hc ih =>
    rw [inRuns_sep hsep hc, flatten_fields_cons (ne_of_isDigit hsep hc), fields_sep_cons,
      List.flatten_cons, List.nil_append, Option.map_eq_some_iff]
    simp only [ih]
    grind
  | case5 c d cs hc hd ih =>
    rw [inRuns_cons hsep hc hd, flatten_fields_cons (ne_of_isDigit hsep hc), Option.map_eq_some_iff]
    simp only [ih]
    grind
  | case6 c d cs hc => simp [inRuns_of_not_isDigit hc]

theorem digitsOnly?_written (runs : DigitRuns) :
    digitsOnly? (runs.written '_') = some runs.allDigits := by
  have hsep : isDigit '_' = false := by decide
  rw [digitsOnly?_eq_some_iff, runs.fields_written hsep]
  exact ⟨inRuns_written runs hsep, rfl⟩

theorem readNat?_written (runs : DigitRuns) :
    readNat? (runs.written '_') =
      if runs.allDigits.length ≤ maxDigits then some runs.allDigits.digitsValue else none := by
  rw [readNat?, digitsOnly?_written]

theorem readNat?_eq_some_iff {t : Text} {m : Nat} : readNat? t = some m ↔
    ∃ runs : DigitRuns, runs.written '_' = t ∧ runs.allDigits.length ≤ maxDigits ∧
      runs.allDigits.digitsValue = m := by
  constructor
  · intro h
    cases hdigits : digitsOnly? t with
    | none =>
      rw [readNat?, hdigits] at h
      contradiction
    | some ds =>
      obtain ⟨runs, rfl⟩ := (inRuns_iff (by decide)).1 (digitsOnly?_eq_some_iff.1 hdigits).1
      rw [readNat?_written, Option.ite_none_right_eq_some] at h
      exact ⟨runs, rfl, h.1, Option.some.inj h.2⟩
  · rintro ⟨runs, rfl, hshort, rfl⟩
    rw [readNat?_written, if_pos hshort]

/-- The integer that a text without blanks around it writes. -/
def readSigned? : Text → Option Int
  | '-' :: ds => (readNat? ds).map fun n : Nat => -(n : Int)
  | '+' :: ds => (readNat? ds).map fun n : Nat => (n : Int)
  | ds => (readNat? ds).map fun n : Nat => (n : Int)

theorem readInt?_eq (t : Text) :
    readInt? t = readSigned? (dropEndWhile isNumberBlank (t.dropWhile isNumberBlank)) := by
  unfold readInt? readSigned?
  simp only [bind_pure_comp, Option.map_eq_map, Option.map_map]
  rfl

/-- A sign and runs of digits are read as what they write, unless there are too many digits. -/
theorem readSigned?_written {runs : DigitRuns} {sign : Text} {n : Int}
    (h : Signed runs.allDigits.digitsValue sign n) :
    readSigned? (sign ++ runs.written '_') =
      if runs.allDigits.length ≤ maxDigits then some n else none := by
  have hread := readNat?_written runs
  cases h with
  | minus =>
    rw [List.singleton_append, readSigned?, hread]
    split <;> rfl
  | plus =>
    rw [List.singleton_append, readSigned?, hread]
    split <;> rfl
  | plain =>
    -- what is written begins with a digit, which is no sign
    have hhead := runs.isDigit_head '_'
    rw [List.nil_append]
    unfold readSigned?
    split
    · next hminus => exact absurd (hhead '-' (by rw [hminus]; rfl)) (by decide)
    · next hplus => exact absurd (hhead '+' (by rw [hplus]; rfl)) (by decide)
    · rw [hread]
      split <;> rfl

theorem exists_of_readSigned? {t : Text} {n : Int} (h : readSigned? t = some n) :
    ∃ (sign : Text) (runs : DigitRuns), t = sign ++ runs.written '_' ∧
      runs.allDigits.length ≤ maxDigits ∧ Signed runs.allDigits.digitsValue sign n := by
  unfold readSigned? at h
  split at h
  all_goals
    obtain ⟨m, hread, rfl⟩ := Option.map_eq_some_iff.1 h
    obtain ⟨runs, rfl, hshort, rfl⟩ := readNat?_eq_some_iff.1 hread
  · exact ⟨['-'], runs, rfl, hshort, .minus⟩
  · exact ⟨['+'], runs, rfl, hshort, .plus⟩
  · exact ⟨[], runs, rfl, hshort, .plain⟩

/-- Blanks around a number do not matter. -/
theorem readInt?_written {runs : DigitRuns} {before sign after : Text} {n : Int}
    (hbefore : ∀ c ∈ before, isNumberBlank c = true) (hafter : ∀ c ∈ after, isNumberBlank c = true)
    (h : Signed runs.allDigits.digitsValue sign n) :
    readInt? (before ++ (sign ++ runs.written '_') ++ after) =
      if runs.allDigits.length ≤ maxDigits then some n else none := by
  have hsolid {c : Char} (hc : isDigit c = true) : ¬isNumberBlank c := fun hblank =>
    not_isBlank_of_digit hc (isBlank_of_isNumberBlank hblank)
  have hhead : ∀ c ∈ (sign ++ runs.written '_').head?, ¬isNumberBlank c := by
    intro c hc
    cases h with
    | plain => exact hsolid (runs.isDigit_head '_' c hc)
    | plus => rw [← Option.some.inj hc]; decide
    | minus => rw [← Option.some.inj hc]; decide
  have hlast : ∀ c ∈ (sign ++ runs.written '_').getLast?, ¬isNumberBlank c := by
    intro c hc
    rw [List.getLast?_append_of_ne_nil _ (runs.written_ne_nil '_')] at hc
    exact hsolid (runs.isDigit_getLast '_' c hc)
  rw [readInt?_eq, dropEndWhile_dropWhile hbefore hafter hhead hlast, readSigned?_written h]

/-- What is read as an integer is what writes it. -/
theorem readInt?_eq_some_iff {t : Text} {n : Int} : readInt? t = some n ↔ Writes t n := by
  constructor
  · intro h
    rw [readInt?_eq] at h
    obtain ⟨sign, runs, htrim, hshort, hsigned⟩ := exists_of_readSigned? h
    obtain ⟨before, after, ht, hbefore, hafter⟩ := exists_dropEndWhile_dropWhile isNumberBlank t
    rw [htrim] at ht
    exact ⟨before, sign, after, runs, ht, hbefore, hafter, hshort, hsigned⟩
  · rintro ⟨before, sign, after, runs, rfl, hbefore, hafter, hshort, hsigned⟩
    rw [readInt?_written hbefore hafter hsigned, if_pos hshort]

end Text

end Annals

import Annals.Failure
import Annals.Proofs.Text.Numerals

/-!
# The normal form of versions

A version is written in runs of digits with single dots between them, and no other text is read as one
(`parse_eq_ok_iff`). Of all texts of a version its own is the normal one: it has no zeros that could be
left out (`isNormal_toText`), and it is read as the version (`parse_toText`). So versions are equal exactly
if their own texts are.
-/

namespace Annals

/-! ## Zeros at the end -/

theorem dropTrailingZeros_isPrefix_self (ps : List Int) : dropTrailingZeros ps <+: ps := by
  cases ps with
  | nil => exact List.prefix_refl _
  | cons p ps =>
    rw [dropTrailingZeros, List.prefix_cons_inj, dropEndWhile_eq_rdropWhile]
    exact List.rdropWhile_prefix _ _

theorem dropTrailingZeros_ne_nil {ps : List Int} (h : ps ≠ []) : dropTrailingZeros ps ≠ [] := by
  cases ps with
  | nil => contradiction
  | cons p ps => exact List.cons_ne_nil _ _

/-- No zero is left at the end but a single one. -/
theorem eq_singleton_of_getLast? {ps : List Int} (hreduced : dropTrailingZeros ps = ps)
    (hlast : ps.getLast? = some 0) : ps = [0] := by
  cases ps with
  | nil => contradiction
  | cons p ps =>
    have htail : dropEndWhile (· == 0) ps = ps := (List.cons.inj hreduced).2
    cases ps with
    | nil => exact congrArg (fun p => [p]) (Option.some.inj hlast)
    | cons q ps =>
      rw [List.getLast?_cons_cons, ← htail] at hlast
      exact absurd rfl (not_of_mem_getLast?_dropEndWhile hlast)

namespace DigitRuns

/-- The numbers that the runs write. -/
def numbers (d : DigitRuns) : List Int := d.runs.map fun run => (Text.digitsValue run : Int)

theorem numbers_ne_nil (d : DigitRuns) : d.numbers ≠ [] := mt List.map_eq_nil_iff.1 d.runs_ne_nil

/-- The digits of natural numbers, a run for each. -/
def ofNats (ns : List Nat) (h : ns ≠ []) : DigitRuns where
  runs := ns.map Text.ofNat
  runs_ne_nil := mt List.map_eq_nil_iff.1 h
  nil_notMem hmem := by
    obtain ⟨n, -, hn⟩ := List.mem_map.1 hmem
    exact Nat.toDigits_ne_nil hn
  digits run hrun c hc := by
    obtain ⟨n, -, rfl⟩ := List.mem_map.1 hrun
    exact isDigit_of_isDigit (Text.isDigit_of_mem_ofNat hc)

theorem numbers_ofNats {ns : List Nat} (h : ns ≠ []) : (ofNats ns h).numbers = ns.map Nat.cast := by
  rw [numbers, ofNats, List.map_map]
  exact List.map_congr_left fun n _ => congrArg Nat.cast (Text.digitsValue_ofNat n)

theorem trim_written (d : DigitRuns) (sep : Char) : Text.trim (d.written sep) = d.written sep :=
  Text.trim_eq_self (fun c hc => not_isBlank_of_digit (d.isDigit_head sep c hc))
    fun c hc => not_isBlank_of_digit (d.isDigit_getLast sep c hc)

end DigitRuns

namespace Version

variable {t : Text} {v : Version}

theorem ext_parts {v w : Version} (h : v.parts = w.parts) : v = w := by
  cases v
  cases w
  simpa using h

theorem ofParts_parts (v : Version) : ofParts v.parts = v := ext_parts v.reduced

/-! ## Reading -/

theorem readParts_of_short {parts : List Text} (h : ∀ part ∈ parts, part.length ≤ maxDigits) :
    readParts parts = .ok (parts.map fun part => (Text.digitsValue part : Int)) := by
  induction parts with
  | nil => rfl
  | cons part parts ih =>
    obtain ⟨hpart, hparts⟩ := List.forall_mem_cons.1 h
    rw [readParts, if_neg (by omega), ih hparts]
    rfl

/-- A part with too many digits is not read. -/
theorem short_of_readParts {parts : List Text} {ps : List Int} (h : readParts parts = .ok ps) :
    ∀ part ∈ parts, part.length ≤ maxDigits := by
  induction parts generalizing ps with
  | nil => exact fun _ hmem => absurd hmem List.not_mem_nil
  | cons part parts ih =>
    rw [readParts] at h
    split at h
    · contradiction
    · next hpart =>
      cases hrest : readParts parts with
      | error e => rw [hrest] at h; contradiction
      | ok rest => exact List.forall_mem_cons.2 ⟨by omega, ih hrest⟩

/-- What is read as a version is runs of digits with single dots between them, none of them too long. -/
theorem parse_eq_ok_iff : parse t = .ok v ↔
    ∃ d : DigitRuns, d.written '.' = t.trim ∧ d.IsShort ∧ ofParts d.numbers = v := by
  have hdot : isDigit '.' = false := by decide
  constructor
  · intro h
    rw [parse] at h
    split at h
    · next hdotted =>
      obtain ⟨d, hd⟩ := (Text.inRuns_iff hdot).1 hdotted
      rw [← hd, d.fields_written hdot] at h
      cases hread : readParts d.runs with
      | error e => rw [hread] at h; contradiction
      | ok ps =>
        have hshort : d.IsShort := short_of_readParts hread
        rw [readParts_of_short hshort] at h
        exact ⟨d, hd, hshort, Except.ok.inj h⟩
    · contradiction
  · rintro ⟨d, hd, hshort, rfl⟩
    have hdotted : isDotted t.trim = true := hd ▸ Text.inRuns_written d hdot
    rw [parse, if_pos hdotted, ← hd, d.fields_written hdot, readParts_of_short hshort]
    rfl

theorem parse_written (d : DigitRuns) (hshort : d.IsShort) :
    parse (d.written '.') = .ok (ofParts d.numbers) :=
  parse_eq_ok_iff.2 ⟨d, (d.trim_written '.').symm, hshort, rfl⟩

/-- The numbers of a version that was read are natural, and not too long to be read again. -/
theorem exists_nats_of_parse (h : parse t = .ok v) : ∃ ns : List Nat, ns ≠ [] ∧
    v.parts = ns.map Nat.cast ∧ ∀ n ∈ ns, (Text.ofNat n).length ≤ maxDigits := by
  obtain ⟨d, -, hshort, rfl⟩ := parse_eq_ok_iff.1 h
  have hnumbers : d.numbers = (d.runs.map Text.digitsValue).map Nat.cast := by
    rw [DigitRuns.numbers, List.map_map]
    rfl
  have hparts : (ofParts d.numbers).parts =
      ((d.runs.map Text.digitsValue).take (dropTrailingZeros d.numbers).length).map Nat.cast := by
    rw [List.map_take, ← hnumbers]
    exact List.prefix_iff_eq_take.1 (dropTrailingZeros_isPrefix_self d.numbers)
  refine ⟨_, fun hnil => ?_, hparts, fun n hn => ?_⟩
  · rw [hnil] at hparts
    exact dropTrailingZeros_ne_nil d.numbers_ne_nil hparts
  · obtain ⟨run, hrun, rfl⟩ := List.mem_map.1 (List.mem_of_mem_take hn)
    exact (Text.length_ofNat_digitsValue (d.run_ne_nil hrun)).trans (hshort run hrun)

/-! ## Writing -/

theorem toText_eq_written {ns : List Nat} (h : v.parts = ns.map Nat.cast) (hne : ns ≠ []) :
    v.toText = (DigitRuns.ofNats ns hne).written '.' := by
  rw [toText, h, List.map_map]
  rfl

/-- The text of a version that was read is read as the version. -/
theorem parse_toText (h : parse t = .ok v) : parse v.toText = .ok v := by
  obtain ⟨ns, hne, hparts, hshort⟩ := exists_nats_of_parse h
  have hruns : (DigitRuns.ofNats ns hne).IsShort := by
    intro run hrun
    obtain ⟨n, hn, rfl⟩ := List.mem_map.1 hrun
    exact hshort n hn
  rw [toText_eq_written hparts hne, parse_written _ hruns, DigitRuns.numbers_ofNats hne, ← hparts,
    ofParts_parts]

/-- Whether a text is a version without zeros that could be left out: no run but a single zero begins
with one, and none but the first is a zero at the end. -/
def IsNormal (t : Text) : Prop :=
  ∃ d : DigitRuns, d.written '.' = t ∧
    (∀ run ∈ d.runs, (∀ c ∈ run, c.isDigit = true) ∧ (run.head? = some '0' → run = ['0'])) ∧
    (d.runs.getLast? = some ['0'] → d.runs = [['0']])

theorem isNormal_toText (h : parse t = .ok v) : IsNormal v.toText := by
  obtain ⟨ns, hne, hparts, -⟩ := exists_nats_of_parse h
  refine ⟨DigitRuns.ofNats ns hne, (toText_eq_written hparts hne).symm, fun run hrun => ?_,
    fun hlast => ?_⟩
  · obtain ⟨n, -, rfl⟩ := List.mem_map.1 hrun
    refine ⟨fun c hc => Text.isDigit_of_mem_ofNat hc, fun hhead => ?_⟩
    obtain rfl : n = 0 := by
      by_contra hn
      exact head?_toDigits hn hhead
    rfl
  · obtain ⟨n, hn, hzero⟩ := List.getLast?_map.symm.trans hlast |> Option.map_eq_some_iff.1
    obtain rfl : n = 0 := by rw [← Text.digitsValue_ofNat n, hzero]; rfl
    have hzeros : v.parts = [0] := by
      refine eq_singleton_of_getLast? v.reduced ?_
      rw [hparts, List.getLast?_map, hn]
      rfl
    rw [hparts] at hzeros
    obtain ⟨m, rfl, hm⟩ := List.map_eq_singleton_iff.1 hzeros
    obtain rfl : m = 0 := Int.ofNat_eq_zero.1 hm
    rfl

/-- **Texts of versions.** A text is read as a version exactly if, blanks around it apart, it is runs of
digits with single dots between them, none of them too long, and it is read as the version of the numbers
that the runs write. The version's own text is in normal form and is read as the version, so that two
texts are read as one version exactly if the versions they are read as have one text. -/
theorem parse_iff_normalForm (t : Text) :
    ((∃ v, parse t = .ok v) ↔ ∃ d : DigitRuns, d.written '.' = t.trim ∧ d.IsShort) ∧
      ((¬∃ v, parse t = .ok v) → ∃ e, parse t = .error e ∧ (Failure.ofVersion e).kind = .value) ∧
      ∀ v, parse t = .ok v →
        (∃ d : DigitRuns, d.written '.' = t.trim ∧ ofParts d.numbers = v) ∧
        parse v.toText = .ok v ∧ IsNormal v.toText ∧
        ∀ u w, parse u = .ok w → (v = w ↔ v.toText = w.toText) := by
  refine ⟨⟨?_, ?_⟩, fun hno => ?_, fun v hv => ⟨?_, parse_toText hv, isNormal_toText hv, ?_⟩⟩
  · rintro ⟨v, hv⟩
    obtain ⟨d, hd, hshort, -⟩ := parse_eq_ok_iff.1 hv
    exact ⟨d, hd, hshort⟩
  · rintro ⟨d, hd, hshort⟩
    exact ⟨_, parse_eq_ok_iff.2 ⟨d, hd, hshort, rfl⟩⟩
  · cases hparse : parse t with
    | ok v => exact absurd ⟨v, hparse⟩ hno
    | error e => exact ⟨e, rfl, by cases e <;> rfl⟩
  · obtain ⟨d, hd, -, hv⟩ := parse_eq_ok_iff.1 hv
    exact ⟨d, hd, hv⟩
  · intro u w hw
    refine ⟨congrArg toText, fun heq => ?_⟩
    have hread := parse_toText hv
    rw [heq, parse_toText hw] at hread
    exact (Except.ok.inj hread).symm

/-- Blanks around a text, zeros in front of its numbers and at its end, and the script of its digits are
not kept. -/
theorem parse_iff_normalForm_of_zeros : ∃ v, parse " \u06607.03.0\n" = .ok v ∧ v.toText = "7.3" ∧
    parse "7.3" = .ok v ∧ IsNormal "7.3" := by
  have hparse : parse " \u06607.03.0\n" = .ok (ofParts [7, 3]) := by rfl
  have htext : (ofParts [7, 3]).toText = "7.3" := by rfl
  obtain ⟨-, -, hnormal⟩ := parse_iff_normalForm " \u06607.03.0\n"
  obtain ⟨-, hread, hform, -⟩ := hnormal _ hparse
  rw [htext] at hread hform
  exact ⟨_, hparse, htext, hread, hform⟩

end Version

end Annals

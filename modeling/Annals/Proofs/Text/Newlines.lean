import Annals.Proofs.Process.Lines
import Annals.Proofs.Text.Fields
import Annals.Proofs.Text.Utf8
import Mathlib.Algebra.Group.Nat.Defs

/-!
# Newlines in bytes

A newline byte never belongs to a longer character: it completes or ends whatever was read before it and
is a newline itself (`decode_append_newline`), and no other bytes are read as one (`newline_notMem_decode`).
Both rest on one invariant of the reader, `Reader.IsSound`: a character of several bytes that is being
read has a value that no single byte has. So bytes that are cut into lines and then read, valid or not,
give the lines of the text that they give as a whole (`textLines_eq_linesOf`).
-/

namespace Annals

namespace Utf8

/-! ## The reader -/

/-- Whether the character that is being read, if there is one, comes to a value beyond those of single
bytes, and only with bytes that no newline is among. -/
def Reader.IsSound : Reader → Prop
  | .between => True
  | .inside value owed low _ => 0x80 ≤ low ∧ 0x80 ≤ (64 * value + (low - 0x80)) * 64 ^ owed

/-- Whether a byte begins what is said: itself, nothing, or a character of several bytes. -/
def Lead.Fits (b : Nat) : Lead → Prop
  | .ascii n => n = b
  | .opens r => r ≠ .between ∧ r.IsSound
  | .bad => True

theorem fits_lead (b : Nat) : (lead b).Fits b := by
  have opens {value owed low high : Nat} (hlow : 0x80 ≤ low)
      (hvalue : 0x80 ≤ (64 * value + (low - 0x80)) * 64 ^ owed) :
      (Lead.opens (.inside value owed low high)).Fits b := ⟨nofun, hlow, hvalue⟩
  unfold lead
  split_ifs
  · exact rfl
  · trivial
  all_goals first
    | exact opens (by omega) (by omega)
    | trivial

theorem isSound_start (b : Nat) : (start b).2.IsSound := by
  have h := fits_lead b
  unfold start
  cases hl : lead b with
  | ascii n => trivial
  | bad => trivial
  | opens r =>
    rw [hl] at h
    exact h.2

/-- A byte in its range goes on with the character. -/
theorem read_inside_of_mem {value low high b : Nat} (hb : low ≤ b ∧ b ≤ high) (owed : Nat) :
    (Reader.inside value owed low high).read b =
      match owed with
      | 0 => ([Char.ofNat (64 * value + (b - 0x80))], .between)
      | owed + 1 => ([], .inside (64 * value + (b - 0x80)) owed 0x80 0xBF) :=
  if_pos hb

/-- A byte out of its range ends the character, which cannot be read. -/
theorem read_inside_of_not {value low high b : Nat} (hb : ¬(low ≤ b ∧ b ≤ high)) (owed : Nat) :
    (Reader.inside value owed low high).read b = (replacement :: (start b).1, (start b).2) :=
  if_neg hb

theorem isSound_read {r : Reader} (hr : r.IsSound) (b : Nat) : (r.read b).2.IsSound := by
  cases r with
  | between => exact isSound_start b
  | inside value owed low high =>
    by_cases hb : low ≤ b ∧ b ≤ high
    · rw [read_inside_of_mem hb]
      cases owed with
      | zero => trivial
      | succ owed =>
        obtain ⟨hlow, hvalue⟩ := hr
        have hgrow : 64 * value + (low - 0x80) ≤ 64 * value + (b - 0x80) := by omega
        have hpow : 64 ^ (owed + 1) = 64 * 64 ^ owed := Nat.pow_succ'
        refine ⟨le_refl _, le_trans hvalue ?_⟩
        calc (64 * value + (low - 0x80)) * 64 ^ (owed + 1)
            ≤ (64 * value + (b - 0x80)) * 64 ^ (owed + 1) := Nat.mul_le_mul_right _ hgrow
          _ = (64 * (64 * value + (b - 0x80)) + (0x80 - 0x80)) * 64 ^ owed := by
            rw [hpow, Nat.sub_self, Nat.add_zero, ← Nat.mul_assoc, Nat.mul_comm _ 64]
    · rw [read_inside_of_not hb]
      exact isSound_start b

theorem ofNat_ne_newline {n : Nat} (h : n ≠ 0x0A) : Char.ofNat n ≠ '\n' := by
  intro hc
  by_cases hvalid : n.isValidChar
  · have hn : (Char.ofNat n).toNat = n := by
      rw [Char.ofNat, dif_pos hvalid]
      rfl
    rw [hc] at hn
    exact h hn.symm
  · rw [Char.ofNat, dif_neg hvalid] at hc
    exact absurd hc (by decide)

/-- A single byte other than a newline begins nothing that is read as one. -/
theorem newline_notMem_start {b : Nat} (hb : b ≠ 0x0A) : '\n' ∉ (start b).1 := by
  have h := fits_lead b
  unfold start
  cases hl : lead b with
  | ascii n =>
    rw [hl] at h
    obtain rfl : n = b := h
    exact fun hmem => ofNat_ne_newline hb (List.mem_singleton.1 hmem).symm
  | bad => decide
  | opens r => exact List.not_mem_nil

/-- A byte other than a newline completes nothing that is read as one. -/
theorem newline_notMem_read {r : Reader} (hr : r.IsSound) {b : Nat} (hb : b ≠ 0x0A) :
    '\n' ∉ (r.read b).1 := by
  cases r with
  | between => exact newline_notMem_start hb
  | inside value owed low high =>
    by_cases hrange : low ≤ b ∧ b ≤ high
    · rw [read_inside_of_mem hrange]
      cases owed with
      | zero =>
        obtain ⟨hlow, hvalue⟩ := hr
        rw [Nat.pow_zero, Nat.mul_one] at hvalue
        rw [List.mem_singleton]
        exact (ofNat_ne_newline (by omega)).symm
      | succ owed => exact List.not_mem_nil
    · rw [read_inside_of_not hrange]
      intro hmem
      rcases List.mem_cons.1 hmem with h | h
      · exact absurd h (by decide)
      · exact newline_notMem_start hb h

/-- A newline byte ends what is being read and is read as itself. -/
theorem read_newline {r : Reader} (hr : r.IsSound) :
    r.read 0x0A = (decodeFrom r [] ++ ['\n'], .between) := by
  cases r with
  | between => rfl
  | inside value owed low high =>
    have hlow : 0x80 ≤ low := hr.1
    have hout : ¬(low ≤ 0x0A ∧ 0x0A ≤ high) := by omega
    rw [read_inside_of_not hout]
    rfl

/-! ## Bytes -/

theorem decodeFrom_cons (r : Reader) (b : UInt8) (bs : Bytes) :
    decodeFrom r (b :: bs) = (r.read b.toNat).1 ++ decodeFrom (r.read b.toNat).2 bs := by
  cases r <;> rfl

theorem decodeFrom_append_newline {r : Reader} (hr : r.IsSound) (bs rest : Bytes) :
    decodeFrom r (bs ++ 0x0A :: rest) = decodeFrom r bs ++ '\n' :: decode rest := by
  induction bs generalizing r with
  | nil =>
    have hread : r.read (0x0A : UInt8).toNat = _ := read_newline hr
    rw [List.nil_append, decodeFrom_cons, hread, List.append_assoc]
    rfl
  | cons b bs ih =>
    rw [List.cons_append, decodeFrom_cons, decodeFrom_cons, ih (isSound_read hr _),
      List.append_assoc]

/-- What stands before a newline byte is read as if it stood alone, and so is what stands behind it. -/
theorem decode_append_newline (bs rest : Bytes) :
    decode (bs ++ 0x0A :: rest) = decode bs ++ '\n' :: decode rest :=
  decodeFrom_append_newline (r := .between) trivial bs rest

theorem newline_notMem_decodeFrom {r : Reader} (hr : r.IsSound) {bs : Bytes} (h : 0x0A ∉ bs) :
    '\n' ∉ decodeFrom r bs := by
  induction bs generalizing r with
  | nil =>
    cases r with
    | between => exact List.not_mem_nil
    | inside value owed low high =>
      intro hmem
      exact absurd (List.mem_singleton.1 hmem) (by decide)
  | cons b bs ih =>
    have hb : b.toNat ≠ 0x0A := fun hb => h (by
      rw [show b = 0x0A from UInt8.toNat_inj.1 hb]
      exact List.mem_cons_self)
    have hbs : 0x0A ∉ bs := fun hmem => h (List.mem_cons_of_mem b hmem)
    rw [decodeFrom_cons, List.mem_append, not_or]
    exact ⟨newline_notMem_read hr hb, ih (isSound_read hr _) hbs⟩

theorem newline_notMem_decode {bs : Bytes} (h : 0x0A ∉ bs) : '\n' ∉ decode bs :=
  newline_notMem_decodeFrom (r := .between) trivial h

/-- A character that is being read is completed or replaced in any case. -/
theorem decodeFrom_inside_ne_nil (value owed low high : Nat) (bs : Bytes) :
    decodeFrom (.inside value owed low high) bs ≠ [] := by
  induction bs generalizing value owed low high with
  | nil => exact List.cons_ne_nil _ _
  | cons b bs ih =>
    rw [decodeFrom_cons]
    by_cases hb : low ≤ b.toNat ∧ b.toNat ≤ high
    · rw [read_inside_of_mem hb]
      cases owed with
      | zero => exact List.cons_ne_nil _ _
      | succ owed => exact ih _ _ _ _
    · rw [read_inside_of_not hb]
      exact List.cons_ne_nil _ _

theorem decode_ne_nil (b : UInt8) (bs : Bytes) : decode (b :: bs) ≠ [] := by
  have h := fits_lead b.toNat
  rw [decode, decodeFrom_cons, Reader.read, start]
  cases hl : lead b.toNat with
  | ascii n => exact List.cons_ne_nil _ _
  | bad => exact List.cons_ne_nil _ _
  | opens r =>
    rw [hl] at h
    cases r with
    | between => exact absurd rfl h.1
    | inside value owed low high => exact decodeFrom_inside_ne_nil value owed low high bs

end Utf8

/-! ## Lines -/

namespace Text

/-- The lines of a text: what stands between newlines, without the last piece if it is empty. -/
def linesOf (t : Text) : List Text :=
  let pieces := fields '\n' t
  if pieces.getLast? = some [] then pieces.dropLast else pieces

theorem linesOf_append {line : Text} (rest : Text) (h : '\n' ∉ line) :
    linesOf (line ++ '\n' :: rest) = line :: linesOf rest := by
  unfold linesOf
  rw [fields_append rest h]
  cases hp : fields '\n' rest with
  | nil => exact absurd hp (fields_ne_nil '\n' rest)
  | cons p ps =>
    simp only [List.getLast?_cons_cons, List.dropLast_cons_cons]
    split <;> rfl

theorem linesOf_of_notMem {t : Text} (h : '\n' ∉ t) (hne : t ≠ []) : linesOf t = [t] := by
  rw [linesOf, fields_of_notMem h]
  exact if_neg (by simpa using hne)

end Text

theorem byteLines_of_notMem {bs : Bytes} (h : 0x0A ∉ bs) (hne : bs ≠ []) : byteLines bs = [bs] := by
  induction bs with
  | nil => exact absurd rfl hne
  | cons b bs ih =>
    obtain ⟨hb, hbs⟩ := not_or.1 (mt List.mem_cons.2 h)
    rw [byteLines, if_neg (Ne.symm hb)]
    cases bs with
    | nil => rfl
    | cons c cs => rw [ih hbs (List.cons_ne_nil c cs)]

/-- The lines that bytes are cut into are the lines of the text that they are read as. -/
theorem textLines_eq_linesOf (bs : Bytes) : textLines bs = Text.linesOf (Utf8.decode bs) := by
  induction hn : bs.length using Nat.strong_induction_on generalizing bs with
  | _ n ih =>
    by_cases hmem : 0x0A ∈ bs
    · -- the first line may be taken off on both sides
      obtain ⟨line, rest, rfl, hline⟩ := List.eq_append_cons_of_mem hmem
      have hshort : rest.length < n := by
        rw [← hn, List.length_append, List.length_cons]
        omega
      have hrest := ih rest.length hshort rest rfl
      rw [Utf8.decode_append_newline, Text.linesOf_append _ (Utf8.newline_notMem_decode hline),
        ← hrest, textLines, byteLines_append rest hline]
      rfl
    · cases bs with
      | nil => rfl
      | cons b bs =>
        rw [textLines, byteLines_of_notMem hmem (List.cons_ne_nil b bs),
          Text.linesOf_of_notMem (Utf8.newline_notMem_decode hmem) (Utf8.decode_ne_nil b bs)]
        rfl

end Annals

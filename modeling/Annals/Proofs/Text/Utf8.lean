import Annals.Text.Utf8

/-!
# Reading what was encoded

The lenient reader gives back every text from its bytes (`decode_encode`): each character, read from
between characters, is completed by exactly its own bytes. A newline byte stands for a newline and
never lies inside another character (`newline_mem_encode`), so that bytes may be cut into lines before
they are read.
-/

namespace Annals.Utf8

theorem toNat_bounds (c : Char) :
    c.toNat < 0xD800 ∨ 0xDFFF < c.toNat ∧ c.toNat < 0x110000 :=
  c.valid

/-! ## One character -/

/-- A first byte of three opens a character whose second byte lies in its range. -/
theorem lead_three {n : Nat} (hlow : 0x800 ≤ n) (hhigh : n < 0x10000)
    (hn : n < 0xD800 ∨ 0xDFFF < n) :
    ∃ low high, lead (0xE0 + n / 4096) = .opens (.inside (n / 4096) 1 low high) ∧
      low ≤ 0x80 + n / 64 % 64 ∧ 0x80 + n / 64 % 64 ≤ high := by
  by_cases h0 : n / 4096 = 0
  · exact ⟨0xA0, 0xBF, by simp [lead, h0], by omega, by omega⟩
  by_cases hD : n / 4096 = 13
  · exact ⟨0x80, 0x9F, by simp [lead, hD], by omega, by omega⟩
  · refine ⟨0x80, 0xBF, ?_, by omega, by omega⟩
    rw [lead, if_neg (by omega), if_neg (by omega), if_neg (by omega), if_neg (by omega),
      if_neg (by omega), if_pos (by omega)]
    simp

/-- A first byte of four opens a character whose second byte lies in its range. -/
theorem lead_four {n : Nat} (hlow : 0x10000 ≤ n) (hhigh : n < 0x110000) :
    ∃ low high, lead (0xF0 + n / 262144) = .opens (.inside (n / 262144) 2 low high) ∧
      low ≤ 0x80 + n / 4096 % 64 ∧ 0x80 + n / 4096 % 64 ≤ high := by
  by_cases h0 : n / 262144 = 0
  · exact ⟨0x90, 0xBF, by simp [lead, h0], by omega, by omega⟩
  by_cases h4 : n / 262144 = 4
  · exact ⟨0x80, 0x8F, by simp [lead, h4], by omega, by omega⟩
  · refine ⟨0x80, 0xBF, ?_, by omega, by omega⟩
    rw [lead, if_neg (by omega), if_neg (by omega), if_neg (by omega), if_neg (by omega),
      if_neg (by omega), if_neg (by omega), if_neg (by omega), if_pos (by omega)]
    simp

/-- A byte in range that more bytes are to follow. -/
theorem decodeFrom_inside_succ {value owed low high b : Nat} (bs : Bytes) (hb : b < 0x80 + 64)
    (hlow : low ≤ b) (hhigh : b ≤ high) :
    decodeFrom (.inside value (owed + 1) low high) (b.toUInt8 :: bs) =
      decodeFrom (.inside (64 * value + (b - 0x80)) owed 0x80 0xBF) bs := by
  have hn : b.toUInt8.toNat = b := Nat.mod_eq_of_lt (by omega)
  simp [decodeFrom, Reader.read, hn, hlow, hhigh]

theorem decodeFrom_inside_zero {value low high b : Nat} (bs : Bytes) (hb : b < 0x80 + 64)
    (hlow : low ≤ b) (hhigh : b ≤ high) :
    decodeFrom (.inside value 0 low high) (b.toUInt8 :: bs) =
      Char.ofNat (64 * value + (b - 0x80)) :: decodeFrom .between bs := by
  have hn : b.toUInt8.toNat = b := Nat.mod_eq_of_lt (by omega)
  simp [decodeFrom, Reader.read, hn, hlow, hhigh]

/-- A byte that opens a character of several bytes. -/
theorem decodeFrom_between_opens {b : Nat} {r : Reader} (bs : Bytes) (hb : b < 256)
    (h : lead b = .opens r) : decodeFrom .between (b.toUInt8 :: bs) = decodeFrom r bs := by
  have hn : b.toUInt8.toNat = b := Nat.mod_eq_of_lt hb
  simp [decodeFrom, Reader.read, start, hn, h]

/-- The bytes of a character are read as that character, whatever follows. -/
theorem decodeFrom_encodeChar (c : Char) (bs : Bytes) :
    decodeFrom .between (encodeChar c ++ bs) = c :: decodeFrom .between bs := by
  have hbounds := toNat_bounds c
  have hc : Char.ofNat c.toNat = c := Char.ofNat_toNat c
  rw [encodeChar]
  generalize c.toNat = n at *
  split
  · next h1 =>
    have hn : n.toUInt8.toNat = n := Nat.mod_eq_of_lt (by omega)
    have hlead : lead n = .ascii n := if_pos h1
    simp [decodeFrom, Reader.read, start, hn, hlead, hc]
  split
  · next h1 h2 =>
    have hlead : lead (0xC0 + n / 64) = .opens (.inside (n / 64) 0 0x80 0xBF) := by
      rw [lead, if_neg (by omega), if_neg (by omega), if_pos (by omega)]
      simp
    rw [List.cons_append, decodeFrom_between_opens _ (by omega) hlead, List.cons_append,
      decodeFrom_inside_zero _ (by omega) (by omega) (by omega)]
    rw [show 64 * (n / 64) + (0x80 + n % 64 - 0x80) = n by omega, hc, List.nil_append]
  split
  · next h1 h2 h3 =>
    obtain ⟨low, high, hlead, hlow, hhigh⟩ := lead_three (n := n) (by omega) h3 (by omega)
    rw [List.cons_append, decodeFrom_between_opens _ (by omega) hlead, List.cons_append,
      decodeFrom_inside_succ _ (by omega) hlow hhigh, List.cons_append,
      decodeFrom_inside_zero _ (by omega) (by omega) (by omega)]
    rw [show 64 * (64 * (n / 4096) + (0x80 + n / 64 % 64 - 0x80)) + (0x80 + n % 64 - 0x80) = n by
      omega, hc, List.nil_append]
  · next h1 h2 h3 =>
    obtain ⟨low, high, hlead, hlow, hhigh⟩ := lead_four (n := n) (by omega) (by omega)
    rw [List.cons_append, decodeFrom_between_opens _ (by omega) hlead, List.cons_append,
      decodeFrom_inside_succ _ (by omega) hlow hhigh, List.cons_append,
      decodeFrom_inside_succ _ (by omega) (by omega) (by omega), List.cons_append,
      decodeFrom_inside_zero _ (by omega) (by omega) (by omega)]
    rw [show 64 * (64 * (64 * (n / 262144) + (0x80 + n / 4096 % 64 - 0x80)) +
      (0x80 + n / 64 % 64 - 0x80)) + (0x80 + n % 64 - 0x80) = n by omega, hc, List.nil_append]

/-! ## Texts -/

theorem decode_encode (t : Text) : decode (encode t) = t := by
  rw [decode, encode]
  induction t with
  | nil => rfl
  | cons c cs ih => rw [List.flatMap_cons, decodeFrom_encodeChar, ih]

theorem newline_mem_encodeChar {c : Char} : (0x0A : UInt8) ∈ encodeChar c ↔ c = '\n' := by
  have hbounds := toNat_bounds c
  have byte : ∀ m, m < 256 → ((0x0A : UInt8) = m.toUInt8 ↔ m = 0x0A) := by
    intro m hm
    rw [← UInt8.toNat_inj]
    change 0x0A = m % 256 ↔ _
    omega
  have hchar : c = '\n' ↔ c.toNat = 0x0A := by
    rw [← Char.toNat_inj]
    rfl
  rw [hchar, encodeChar]
  generalize c.toNat = n at *
  split
  · next h1 =>
    rw [List.mem_singleton, byte n (by omega)]
  split
  · simp only [List.mem_cons, List.not_mem_nil, or_false]
    rw [byte _ (by omega), byte _ (by omega)]
    omega
  split
  · simp only [List.mem_cons, List.not_mem_nil, or_false]
    rw [byte _ (by omega), byte _ (by omega), byte _ (by omega)]
    omega
  · simp only [List.mem_cons, List.not_mem_nil, or_false]
    rw [byte _ (by omega), byte _ (by omega), byte _ (by omega), byte _ (by omega)]
    omega

theorem newline_mem_encode {t : Text} : (0x0A : UInt8) ∈ encode t ↔ '\n' ∈ t := by
  simp [encode, newline_mem_encodeChar]

end Annals.Utf8

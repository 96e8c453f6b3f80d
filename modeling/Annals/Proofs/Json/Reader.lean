import Annals.Assoc
import Annals.Proofs.Text.Digits
import Annals.Proofs.Text.Surrogates
import Annals.Render.Json

/-!
# Reading JSON

A reader of JSON texts. Blanks may stand between any two parts, a code point of a text may be written as
it is or in any of its escapes, and two escaped surrogates that stand for a code point are read as that. A
surrogate that stands alone is kept. Numbers with a fraction or an exponent are no values here and are
refused.

The reader goes down a value with a number of steps, of which it needs no more than there are
characters. It reads a text as it was quoted, but for pairs of surrogates (`readText?_quote`), and a number
as it was written (`readNumber?_ofInt`).
-/

namespace Annals.Json

/-! ## Characters and texts -/

/-- Whether a character may stand between the parts of a value. -/
def isSpace (c : Char) : Bool := c == ' ' || c == '\t' || c == '\n' || c == '\r'

def hexValue? (c : Char) : Option Nat :=
  if '0' ≤ c ∧ c ≤ '9' then some (c.toNat - '0'.toNat)
  else if 'a' ≤ c ∧ c ≤ 'f' then some (c.toNat - 'a'.toNat + 10)
  else if 'A' ≤ c ∧ c ≤ 'F' then some (c.toNat - 'A'.toNat + 10)
  else none

/-- The code unit that the first four characters write in hexadecimal digits, and the text after it. -/
def readUnit? : Text → Option (Nat × Text)
  | a :: b :: c :: d :: t => do
    let a ← hexValue? a
    let b ← hexValue? b
    let c ← hexValue? c
    let d ← hexValue? d
    return (0x1000 * a + 0x100 * b + 0x10 * c + d, t)
  | _ => none

/-- The low surrogate that a text begins with as an escape, and the text after it. -/
def readLow? (t : Text) : Option (CodePoint × Text) := do
  let (n, t) ← readUnit? (← Text.after? ['\\', 'u'] t)
  let lo : CodePoint := .ofNat n
  if lo.isLow then return (lo, t) else none

/-- The code point that one code unit writes, or two if those are surrogates that stand for it. -/
def readUnits? (t : Text) : Option (CodePoint × Text) := do
  let (n, t) ← readUnit? t
  let c : CodePoint := .ofNat n
  match if c.isHigh then readLow? t else none with
  | some (lo, t) => return (.pair c lo, t)
  | none => return (c, t)

/-- The characters with an escape of one character behind the backslash. -/
def shortEscapes : Assoc Char Char :=
  [('"', '"'), ('\\', '\\'), ('/', '/'), ('b', '\x08'), ('f', '\x0c'), ('n', '\n'), ('r', '\r'),
    ('t', '\t')]

/-- The code point that a text between quotes begins with, and the text after it. -/
def readChar? : Text → Option (CodePoint × Text)
  | [] => none
  | c :: t =>
    if c = '\\' then
      match t with
      | [] => none
      | e :: t => if e = 'u' then readUnits? t else (shortEscapes.get? e).map fun c => (.ofChar c, t)
    else if c = '"' ∨ c.toNat < 0x20 then none
    else some (.ofChar c, t)

/-- The text up to the quote that ends it, and what stands behind the quote. -/
def readText? : (steps : Nat) → Text → Option (RawText × Text)
  | 0, _ => none
  | _, [] => none
  | steps + 1, c :: t =>
    if c = '"' then some ([], t)
    else do
      let (first, t) ← readChar? (c :: t)
      let (others, t) ← readText? steps t
      return (first :: others, t)

/-! ## Numbers -/

/-- Whether some digits write a whole number: zeros in front are not allowed. -/
def isWhole (digits : Text) : Bool := digits == ['0'] || (digits ≠ [] && digits.head? ≠ some '0')

/-- Whether a character goes on with the number before it. -/
def continuesNumber (c : Char) : Bool := c.isDigit || c == '.' || c == 'e' || c == 'E'

/-- The natural number that a text begins with, and the text after it. -/
def readNat? (t : Text) : Option (Nat × Text) :=
  let digits := t.takeWhile Char.isDigit
  let rest := t.dropWhile Char.isDigit
  if isWhole digits && !rest.head?.any continuesNumber then some (Nat.ofDigitChars 10 digits 0, rest)
  else none

def readNumber? (t : Text) : Option (Int × Text) :=
  match Text.after? ['-'] t with
  | some t => (readNat? t).map fun (n, t) => (-(n : Int), t)
  | none => (readNat? t).map fun (n, t) => ((n : Int), t)

/-! ## Values -/

/-- What stands behind a character, if the text begins with it or with blanks and it. -/
def expect (c : Char) (t : Text) : Option Text := Text.after? [c] (t.dropWhile isSpace)

/-- The values that are written as a word. -/
def words : List (Text × Json) := [("null", null), ("true", bool true), ("false", bool false)]

/-- The word or the number that a text begins with, and the text after it. -/
def readScalar? (t : Text) : Option (Json × Text) :=
  match words.findSome? fun (word, value) => (Text.after? word t).map fun t => (value, t) with
  | some read => some read
  | none => (readNumber? t).map fun (n, t) => (number n, t)

mutual

/-- The value that a text begins with, and the text after it. -/
def readValue? : (steps : Nat) → Text → Option (Json × Text)
  | 0, _ => none
  | steps + 1, t =>
    match expect '"' t, expect '[' t, expect '\x7b' t with
    | some t, _, _ => (readText? steps t).map fun (content, t) => (text content, t)
    | _, some t, _ =>
      match expect ']' t with
      | some t => some (list [], t)
      | none => (readItems? steps t).map fun (items, t) => (list items, t)
    | _, _, some t =>
      match expect '\x7d' t with
      | some t => some (object [], t)
      | none => (readFields? steps t).map fun (fields, t) => (object fields, t)
    | none, none, none => readScalar? (t.dropWhile isSpace)

/-- One or more items of a list up to the bracket that ends it, and the text after that. -/
def readItems? : (steps : Nat) → Text → Option (List Json × Text)
  | 0, _ => none
  | steps + 1, t => do
    let (item, t) ← readValue? steps t
    match expect ',' t with
    | some t =>
      let (items, t) ← readItems? steps t
      return (item :: items, t)
    | none => return ([item], ← expect ']' t)

/-- One or more fields of an object up to the brace that ends it, and the text after that. -/
def readFields? : (steps : Nat) → Text → Option (List (RawText × Json) × Text)
  | 0, _ => none
  | steps + 1, t => do
    let t ← expect '"' t
    let (name, t) ← readText? steps t
    let t ← expect ':' t
    let (value, t) ← readValue? steps t
    match expect ',' t with
    | some t =>
      let (fields, t) ← readFields? steps t
      return ((name, value) :: fields, t)
    | none => return ([(name, value)], ← expect '\x7d' t)

end

/-- The value that a text writes, with blanks around it or not. -/
def read? (t : Text) : Option Json :=
  match readValue? (t.length + 1) t with
  | some (value, rest) => if rest.all isSpace then some value else none
  | none => none

/-! ## Reading characters -/

theorem hexValue?_digitChar {d : Nat} (h : d < 16) : hexValue? (Nat.digitChar d) = some d := by
  revert h
  revert d
  decide

theorem readUnit?_hex {n : Nat} (h : n < 0x10000) (t : Text) :
    readUnit? (Text.hex 4 n ++ t) = some (n, t) := by
  have hvalue : 0x1000 * (n / 0x1000) + 0x100 * (n / 0x100 % 0x10) + 0x10 * (n / 0x10 % 0x10) +
      n % 0x10 = n := by
    omega
  rw [Text.hex_four h]
  simp only [List.cons_append, List.nil_append, readUnit?]
  rw [hexValue?_digitChar (by omega), hexValue?_digitChar (by omega), hexValue?_digitChar (by omega),
    hexValue?_digitChar (by omega)]
  simp only [Option.bind_eq_bind, Option.bind_some, hvalue, pure]

section Units

variable {c : CodePoint} {t : Text}

theorem after?_unit (n : Nat) (t : Text) :
    Text.after? ['\\', 'u'] (unit n ++ t) = some (Text.hex 4 n ++ t) :=
  Text.after?_eq_some_iff.2 rfl

theorem readLow?_unit (h : c.val < 0x10000) :
    readLow? (unit c.val ++ t) = if c.isLow then some (c, t) else none := by
  simp only [readLow?, after?_unit, readUnit?_hex h, Option.bind_eq_bind, Option.bind_some,
    CodePoint.ofNat_val]
  rfl

/-- A code point of four hexadecimal digits is read from its unit, unless that goes on with another. -/
theorem readUnits?_unit (h : c.val < 0x10000) (halone : c.isHigh = true → readLow? t = none) :
    readUnits? (Text.hex 4 c.val ++ t) = some (c, t) := by
  have hlow : (if c.isHigh = true then readLow? t else none) = none := by
    split
    · next hhigh => exact halone hhigh
    · rfl
  simp only [readUnits?, readUnit?_hex h, Option.bind_eq_bind, Option.bind_some, CodePoint.ofNat_val, hlow]
  rfl

/-- Two surrogates are read as the code point that they stand for. -/
theorem readUnits?_pair {hi lo : CodePoint} (hhi : hi.isHigh = true) (hlo : lo.isLow = true) (t : Text) :
    readUnits? (Text.hex 4 hi.val ++ (unit lo.val ++ t)) = some (.pair hi lo, t) := by
  have hhi' : hi.val < 0x10000 := by
    have hbounds := CodePoint.isHigh_iff.mp hhi
    omega
  have hlo' : lo.val < 0x10000 := by
    have hbounds := CodePoint.isLow_iff.mp hlo
    omega
  simp only [readUnits?, readUnit?_hex hhi', Option.bind_eq_bind, Option.bind_some, CodePoint.ofNat_val, hhi,
    if_true, readLow?_unit hlo', hlo]
  rfl

end Units

theorem readChar?_unit (n : Nat) (t : Text) :
    readChar? (unit n ++ t) = readUnits? (Text.hex 4 n ++ t) := rfl

/-! ## Reading what was escaped -/

/-- The forms in which a code point is written. -/
inductive Writes (c : CodePoint) : Text → Prop
  | short {e d : Char} (he : e ≠ 'u') (hprinted : 0x20 ≤ e.toNat ∧ e.toNat < 0x7F)
    (hget : shortEscapes.get? e = some d) (hd : .ofChar d = c) : Writes c ['\\', e]
  | plain {d : Char} (hslash : d ≠ '\\') (hquote : d ≠ '"')
    (hprinted : 0x20 ≤ d.toNat ∧ d.toNat < 0x7F) (hd : .ofChar d = c) : Writes c [d]
  | unit (h : c.val < 0x10000) : Writes c (unit c.val)
  | pair {hi lo : CodePoint} (hhi : hi.isHigh = true) (hlo : lo.isLow = true) (hc : .pair hi lo = c) :
    Writes c (unit hi.val ++ unit lo.val)

/-- A code point of more than four digits is written as its surrogates. -/
theorem writes_surrogates {c : CodePoint} (h : 0x10000 ≤ c.val) :
    Writes c (unit (0xD800 + (c.val - 0x10000) / 0x400) ++ unit (0xDC00 + (c.val - 0x10000) % 0x400)) := by
  have hbound := c.isLt
  obtain ⟨hi, hhi'⟩ : ∃ hi : CodePoint, hi.val = 0xD800 + (c.val - 0x10000) / 0x400 :=
    ⟨⟨_, by omega⟩, rfl⟩
  obtain ⟨lo, hlo'⟩ : ∃ lo : CodePoint, lo.val = 0xDC00 + (c.val - 0x10000) % 0x400 :=
    ⟨⟨_, by omega⟩, rfl⟩
  have hhi : hi.isHigh = true := CodePoint.isHigh_iff.mpr (by omega)
  have hlo : lo.isLow = true := CodePoint.isLow_iff.mpr (by omega)
  have hpair := CodePoint.val_pair hhi hlo
  rw [← hhi', ← hlo']
  exact .pair hhi hlo (Fin.ext (by omega))

theorem ofChar_eq {c : CodePoint} {d : Char} {n : Nat} (hd : d.toNat = n) (h : c.val = n) : .ofChar d = c :=
  Fin.ext (by rw [CodePoint.val_ofChar, hd, h])

theorem writes_escape (c : CodePoint) : Writes c (escape c) := by
  unfold escape
  extract_lets n
  split
  · next h => exact .short (d := '"') (by decide) (by decide) rfl (ofChar_eq rfl h)
  split
  · next h => exact .short (d := '\\') (by decide) (by decide) rfl (ofChar_eq rfl h)
  split
  · next h => exact .short (d := '\n') (by decide) (by decide) rfl (ofChar_eq rfl h)
  split
  · next h => exact .short (d := '\r') (by decide) (by decide) rfl (ofChar_eq rfl h)
  split
  · next h => exact .short (d := '\t') (by decide) (by decide) rfl (ofChar_eq rfl h)
  split
  · next h => exact .short (d := '\x08') (by decide) (by decide) rfl (ofChar_eq rfl h)
  split
  · next h => exact .short (d := '\x0c') (by decide) (by decide) rfl (ofChar_eq rfl h)
  split
  · next hquote hslash _ _ _ _ _ h =>
    have hvalid : n.isValidChar := .inl (by omega)
    have hn : (Char.ofNat n).toNat = n := by
      rw [Char.ofNat, dif_pos hvalid]
      exact UInt32.toNat_ofNatLT
    refine .plain ?_ ?_ (hn.symm ▸ h) (ofChar_eq hn rfl)
    · rintro heq
      rw [heq] at hn
      exact hslash hn.symm
    · rintro heq
      rw [heq] at hn
      exact hquote hn.symm
  split
  · next h => exact .unit h
  · next h => exact writes_surrogates (Nat.not_lt.mp h)

namespace Writes

variable {c : CodePoint} {u t : Text}

/-- A code point is read as it is written, unless two surrogates are written that stand for one. -/
theorem readChar? (h : Writes c u) (halone : c.isHigh = true → readLow? t = none) :
    readChar? (u ++ t) = some (c, t) := by
  cases h with
  | short he _ hget hd => simp [Json.readChar?, he, hget, hd]
  | plain hslash hquote hprinted hd =>
    simp [Json.readChar?, hslash, hquote, Nat.not_lt.mpr hprinted.1, hd]
  | unit h => rw [readChar?_unit, readUnits?_unit h halone]
  | pair hhi hlo hc => rw [List.append_assoc, readChar?_unit, readUnits?_pair hhi hlo, hc]

theorem readLow? (h : Writes c u) (hlow : c.isLow = false) : readLow? (u ++ t) = none := by
  cases h with
  | short he _ _ _ => simp [Json.readLow?, Text.after?, he.symm]
  | plain hslash _ _ _ => simp [Json.readLow?, Text.after?, hslash.symm]
  | unit h => rw [readLow?_unit h, hlow, if_neg Bool.false_ne_true]
  | pair hhi hlo _ =>
    have hbounds := CodePoint.isHigh_iff.mp hhi
    rw [List.append_assoc, readLow?_unit (by omega), if_neg]
    rw [CodePoint.isLow_iff]
    omega

/-- What is written of a code point does not end the text. -/
theorem exists_cons (h : Writes c u) : ∃ d ds, u = d :: ds ∧ d ≠ '"' := by
  have hslash : '\\' ≠ '"' := by decide
  cases h with
  | short _ _ _ _ => exact ⟨_, _, rfl, hslash⟩
  | plain _ hquote _ _ => exact ⟨_, _, rfl, hquote⟩
  | unit _ => exact ⟨_, _, rfl, hslash⟩
  | pair _ _ _ => exact ⟨_, _, rfl, hslash⟩

end Writes

/-- A text without pairs of surrogates is read as it was quoted, behind the first quote. -/
theorem readText?_of_unpaired {cs : RawText} (hcs : cs.Unpaired) (t : Text) {steps : Nat}
    (h : cs.length < steps) : readText? steps (cs.flatMap escape ++ '"' :: t) = some (cs, t) := by
  induction cs generalizing steps with
  | nil =>
    obtain ⟨steps, rfl⟩ := Nat.exists_eq_succ_of_ne_zero (Nat.ne_of_gt h)
    rfl
  | cons c cs ih =>
    obtain ⟨steps, rfl⟩ := Nat.exists_eq_succ_of_ne_zero (Nat.ne_of_gt (Nat.zero_lt_of_lt h))
    obtain ⟨hfirst, hothers⟩ := List.isChain_cons.mp hcs
    have halone : c.isHigh = true → readLow? (cs.flatMap escape ++ '"' :: t) = none := by
      intro hhigh
      cases cs with
      | nil => rfl
      | cons d cs =>
        have hlow : d.isLow = false := Bool.not_eq_true _ ▸ fun hd => hfirst d rfl ⟨hhigh, hd⟩
        rw [List.flatMap_cons, List.append_assoc]
        exact (writes_escape d).readLow? hlow
    have hchar := (writes_escape c).readChar? halone
    obtain ⟨d, ds, hescape, hd⟩ := (writes_escape c).exists_cons
    rw [hescape] at hchar
    rw [List.flatMap_cons, hescape, List.append_assoc, List.cons_append, readText?, if_neg hd,
      ← List.cons_append, hchar]
    simp only [Option.bind_eq_bind, Option.bind_some]
    rw [ih hothers (Nat.lt_of_succ_lt_succ h)]
    rfl

/-! ## Pairs of surrogates -/

theorem escape_of_isHigh {c : CodePoint} (h : c.isHigh = true) : escape c = unit c.val := by
  rw [CodePoint.isHigh_iff] at h
  unfold escape
  repeat rw [if_neg (by omega)]
  rw [if_pos (by omega)]

theorem escape_of_isLow {c : CodePoint} (h : c.isLow = true) : escape c = unit c.val := by
  rw [CodePoint.isLow_iff] at h
  unfold escape
  repeat rw [if_neg (by omega)]
  rw [if_pos (by omega)]

/-- Two surrogates are written as the code point that they stand for. -/
theorem escape_pair {hi lo : CodePoint} (hhi : hi.isHigh = true) (hlo : lo.isLow = true) :
    escape (.pair hi lo) = escape hi ++ escape lo := by
  have hval := CodePoint.val_pair hhi hlo
  have hhi' := CodePoint.isHigh_iff.mp hhi
  have hlo' := CodePoint.isLow_iff.mp hlo
  have hfirst : 0xD800 + ((CodePoint.pair hi lo).val - 0x10000) / 0x400 = hi.val := by omega
  have hsecond : 0xDC00 + ((CodePoint.pair hi lo).val - 0x10000) % 0x400 = lo.val := by omega
  rw [escape_of_isHigh hhi, escape_of_isLow hlo, ← hfirst, ← hsecond]
  rw [escape]
  repeat rw [if_neg (by omega)]

theorem flatMap_escape_joined (t : RawText) : t.joined.flatMap escape = t.flatMap escape := by
  fun_induction RawText.joined t with
  | case1 => rfl
  | case2 => rfl
  | case3 c d t hpair ih =>
    obtain ⟨hc, hd⟩ := (Bool.and_eq_true _ _).mp hpair
    rw [List.flatMap_cons, List.flatMap_cons, List.flatMap_cons, escape_pair hc hd, ih, List.append_assoc]
  | case4 c d t hpair ih =>
    rw [List.flatMap_cons, ih]
    rfl

/-- A text is read as it was quoted, but for its pairs of surrogates, behind the first quote. -/
theorem readText?_quote (cs : RawText) (t : Text) {steps : Nat} (h : cs.length < steps) :
    readText? steps (cs.flatMap escape ++ '"' :: t) = some (cs.joined, t) := by
  rw [← flatMap_escape_joined]
  exact readText?_of_unpaired cs.unpaired_joined t (Nat.lt_of_le_of_lt cs.length_joined_le h)

/-! ## Reading numbers -/

theorem isWhole_ofNat (n : Nat) : isWhole (Text.ofNat n) = true := by
  by_cases hn : n = 0
  · subst hn
    rfl
  · simp [isWhole, Text.ofNat, Nat.toDigits_ne_nil, head?_toDigits hn]

/-- Whether a text does not go on with a number before it. -/
def EndsNumber (t : Text) : Prop := t.head?.any continuesNumber = false

theorem not_isDigit_of_continues {c : Char} (h : continuesNumber c = false) : c.isDigit = false := by
  simp only [continuesNumber, Bool.or_eq_false_iff] at h
  exact h.1.1.1

theorem readNat?_ofNat (n : Nat) {rest : Text} (h : EndsNumber rest) :
    readNat? (Text.ofNat n ++ rest) = some (n, rest) := by
  have hdigits : ∀ c ∈ Text.ofNat n, c.isDigit = true :=
    fun c hc => Nat.isDigit_of_mem_toDigits (by decide) (by decide) hc
  have hrest : rest.takeWhile Char.isDigit = [] ∧ rest.dropWhile Char.isDigit = rest := by
    cases rest with
    | nil => exact ⟨rfl, rfl⟩
    | cons c rest => simp [not_isDigit_of_continues (Option.some_inj.1 (congrArg some h))]
  have htake : (Text.ofNat n ++ rest).takeWhile Char.isDigit = Text.ofNat n := by
    rw [List.takeWhile_append_of_pos hdigits, hrest.1, List.append_nil]
  have hdrop : (Text.ofNat n ++ rest).dropWhile Char.isDigit = rest := by
    rw [List.dropWhile_append_of_pos hdigits, hrest.2]
  have hstop : rest.head?.any continuesNumber = false := h
  simp only [readNat?, htake, hdrop, isWhole_ofNat, hstop, Bool.not_false, Bool.and_self, if_true]
  rw [Text.ofNat, Nat.ofDigitChars_ten_toDigits]

theorem exists_ofNat (n : Nat) : ∃ d ds, Text.ofNat n = d :: ds ∧ d.isDigit = true := by
  obtain ⟨d, ds, h⟩ := List.exists_cons_of_ne_nil (Nat.toDigits_ne_nil (n := n) (b := 10))
  exact ⟨d, ds, h, Nat.isDigit_of_mem_toDigits (by decide) (by decide) (h ▸ List.mem_cons_self)⟩

theorem readNumber?_ofInt (n : Int) {rest : Text} (h : EndsNumber rest) :
    readNumber? (Text.ofInt n ++ rest) = some (n, rest) := by
  cases n with
  | ofNat n =>
    obtain ⟨d, ds, hcons, hdigit⟩ := exists_ofNat n
    have hsign : Text.after? ['-'] (Text.ofNat n ++ rest) = none := by
      have hd : '-' ≠ d := by
        rintro rfl
        exact absurd hdigit (by decide)
      rw [hcons, List.cons_append, Text.after?, if_neg hd]
    rw [readNumber?, Text.ofInt, hsign, readNat?_ofNat n h]
    rfl
  | negSucc n =>
    have hsign : Text.after? ['-'] ('-' :: (Text.ofNat (n + 1) ++ rest)) =
        some (Text.ofNat (n + 1) ++ rest) := Text.after?_eq_some_iff.2 rfl
    rw [readNumber?, Text.ofInt, List.cons_append, hsign]
    simp only [readNat?_ofNat (n + 1) h]
    rfl

end Annals.Json

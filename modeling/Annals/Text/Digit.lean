import Annals.Text.Basic

/-!
# Decimal digits

A decimal digit is any character of the Unicode category Nd. Such characters come in runs of ten in
consecutive positions, from the digit zero to the digit nine, so the table lists the zeros.

Numbers written in digits are read with a bound on their length: a number of more than
`maxDigits` digits is refused.
-/

namespace Annals

def digitZeros : List Nat :=
  [0x30, 0x660, 0x6F0, 0x7C0, 0x966, 0x9E6, 0xA66, 0xAE6, 0xB66, 0xBE6, 0xC66, 0xCE6, 0xD66,
    0xDE6, 0xE50, 0xED0, 0xF20, 0x1040, 0x1090, 0x17E0, 0x1810, 0x1946, 0x19D0, 0x1A80, 0x1A90,
    0x1B50, 0x1BB0, 0x1C40, 0x1C50, 0xA620, 0xA8D0, 0xA900, 0xA9D0, 0xA9F0, 0xAA50, 0xABF0,
    0xFF10, 0x104A0, 0x10D30, 0x11066, 0x110F0, 0x11136, 0x111D0, 0x112F0, 0x11450, 0x114D0,
    0x11650, 0x116C0, 0x11730, 0x118E0, 0x11950, 0x11C50, 0x11D50, 0x11DA0, 0x16A60, 0x16AC0,
    0x16B50, 0x1D7CE, 0x1D7D8, 0x1D7E2, 0x1D7EC, 0x1D7F6, 0x1E140, 0x1E2F0, 0x1E950, 0x1FBF0]

/-- The value of a decimal digit, if the character is one. -/
def digitValue? (c : Char) : Option Nat :=
  let n := c.toNat
  if n < 0x80 then
    if 0x30 ≤ n && n ≤ 0x39 then some (n - 0x30) else none
  else (digitZeros.find? fun z => z ≤ n && n < z + 10).map (n - ·)

def isDigit (c : Char) : Bool := (digitValue? c).isSome

/-- The most digits that a number may be written with. -/
def maxDigits : Nat := 4300

namespace Text

/-- The number that a text of decimal digits writes; other characters count as zero. -/
def digitsValue (t : Text) : Nat := t.foldl (fun n c => 10 * n + (digitValue? c).getD 0) 0

/-- The blanks that may surround a written integer: all but the information separators. -/
def isNumberBlank (c : Char) : Bool :=
  let n := c.toNat
  (0x09 ≤ n && n ≤ 0x0D) || n == 0x20 || n == 0x85 || n == 0xA0 || n == 0x1680 ||
    (0x2000 ≤ n && n ≤ 0x200A) || n == 0x2028 || n == 0x2029 || n == 0x202F || n == 0x205F ||
    n == 0x3000

/-- The digits of a written number without the single underscores that may stand between two of
them; none if the text is no such number. -/
def digitsOnly? : Text → Option Text
  | [] => none
  | [c] => if isDigit c then some [c] else none
  | c :: d :: cs =>
    if isDigit c then
      if d = '_' then (digitsOnly? cs).map (c :: ·) else (digitsOnly? (d :: cs)).map (c :: ·)
    else none

/-- The natural number written in digits and single underscores, of at most `maxDigits` digits. -/
def readNat? (t : Text) : Option Nat :=
  match digitsOnly? t with
  | some ds => if ds.length ≤ maxDigits then some (digitsValue ds) else none
  | none => none

/-- The integer that a text writes: digits with single underscores between them, after at most one
sign and between blanks. -/
def readInt? (t : Text) : Option Int :=
  match dropEndWhile isNumberBlank (t.dropWhile isNumberBlank) with
  | '-' :: ds => (readNat? ds).map fun n => -(n : Int)
  | '+' :: ds => (readNat? ds).map fun n => (n : Int)
  | ds => (readNat? ds).map fun n => (n : Int)

end Text

end Annals

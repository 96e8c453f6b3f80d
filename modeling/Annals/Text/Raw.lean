import Annals.Text.Basic

/-!
# Raw texts

A raw text is a list of code points, among which there may be surrogates. Those are no characters, so
that a text has none, but a file name can: a byte of it that cannot be decoded is kept as a surrogate.
-/

namespace Annals

abbrev CodePoint := Fin 0x110000

namespace CodePoint

/-- The code point with a number, which is reduced if there is none. -/
def ofNat (n : Nat) : CodePoint := Fin.ofNat 0x110000 n

theorem ofNat_val (c : CodePoint) : ofNat c.val = c := Fin.ext (Nat.mod_eq_of_lt c.isLt)

def ofChar (c : Char) : CodePoint := ofNat c.toNat

end CodePoint

/-- A text that may hold surrogates. -/
abbrev RawText := List CodePoint

def Text.raw (t : Text) : RawText := t.map CodePoint.ofChar

end Annals

import Annals.Text.Printable

/-!
# Quoted text

How texts are shown inside messages: between single quotes, or between double quotes if the text
holds a single quote and no double quote. Inside, the backslash, the quote, tab, newline and carriage
return are escaped, and every other character that is not printable is written by its code point in
two, four or eight hexadecimal digits.
-/

namespace Annals.Text

def quoteFor (t : Text) : Char :=
  if t.contains '\x27' && !t.contains '"' then '"' else '\x27'

/-- The code point of a character as an escape, in the shortest of the three forms. -/
def codeEscape (c : Char) : Text :=
  let n := c.toNat
  if n ≤ 0xFF then "\\x" ++ hex 2 n
  else if n ≤ 0xFFFF then "\\u" ++ hex 4 n
  else "\\U" ++ hex 8 n

def escapeIn (quote c : Char) : Text :=
  if c = quote ∨ c = '\\' then ['\\', c]
  else if c = '\t' then ['\\', 't']
  else if c = '\n' then ['\\', 'n']
  else if c = '\r' then ['\\', 'r']
  else if isPrintable c then [c]
  else codeEscape c

def quoted (t : Text) : Text :=
  let q := quoteFor t
  q :: (t.flatMap (escapeIn q) ++ [q])

end Annals.Text

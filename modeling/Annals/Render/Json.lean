import Annals.Text.Raw

/-!
# JSON

JSON values and their text: one item or field per line, indented by two blanks for each level, fields in
the order of their names, and only printable ASCII characters. Any other code point is written in four
hexadecimal digits, or as a pair of surrogates if it has more. A surrogate in a text is written as it is,
whatever stands beside it.
-/

namespace Annals

/-- A JSON value. -/
inductive Json where
  | null
  | bool (b : Bool)
  | number (n : Int)
  | text (t : RawText)
  | list (items : List Json)
  | object (fields : List (RawText × Json))

namespace Json

/-- A text without surrogates. -/
def word (t : Text) : Json := text t.raw

def texts (ts : List RawText) : Json := list (ts.map text)

def text? : Option RawText → Json
  | none => null
  | some t => text t

def unit (n : Nat) : Text := '\\' :: 'u' :: Text.hex 4 n

def escape (c : CodePoint) : Text :=
  let n := c.val
  if n = 0x22 then ['\\', '"']
  else if n = 0x5C then ['\\', '\\']
  else if n = 0x0A then ['\\', 'n']
  else if n = 0x0D then ['\\', 'r']
  else if n = 0x09 then ['\\', 't']
  else if n = 0x08 then ['\\', 'b']
  else if n = 0x0C then ['\\', 'f']
  else if 0x20 ≤ n ∧ n < 0x7F then [Char.ofNat n]
  else if n < 0x10000 then unit n
  else unit (0xD800 + (n - 0x10000) / 0x400) ++ unit (0xDC00 + (n - 0x10000) % 0x400)

def quote (t : RawText) : Text := '"' :: (t.flatMap escape ++ ['"'])

def newLine (level : Nat) : Text := '\n' :: List.replicate (2 * level) ' '

/-- The fields in the order of their names. -/
def inOrder {α : Type} (fields : List (Text × α)) : List (Text × α) :=
  fields.mergeSort fun a b => Text.le a.1 b.1

mutual

/-- The text of a value at a level, with its fields in the order in which they are given. -/
def print (level : Nat) : Json → Text
  | null => "null"
  | bool b => if b then "true" else "false"
  | number n => Text.ofInt n
  | text t => quote t
  | list [] => "[]"
  | list (item :: items) =>
    "[" ++ newLine (level + 1) ++ print (level + 1) item ++ printItems (level + 1) items ++
      newLine level ++ "]"
  | object [] => "\x7b\x7d"
  | object ((name, value) :: fields) =>
    "\x7b" ++ newLine (level + 1) ++ quote name ++ ": " ++ print (level + 1) value ++
      printFields (level + 1) fields ++ newLine level ++ "\x7d"

/-- The text of the items after the first. -/
def printItems (level : Nat) : List Json → Text
  | [] => []
  | item :: items => "," ++ newLine level ++ print level item ++ printItems level items

/-- The text of the fields after the first. -/
def printFields (level : Nat) : List (RawText × Json) → Text
  | [] => []
  | (name, value) :: fields =>
    "," ++ newLine level ++ quote name ++ ": " ++ print level value ++ printFields level fields

end

/-- An object with its fields in the order of their names. -/
def ordered (fields : List (Text × Json)) : Json :=
  object ((inOrder fields).map fun field => (field.1.raw, field.2))

def render (j : Json) : Text := print 0 j

end Json

end Annals

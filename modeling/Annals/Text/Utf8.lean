import Annals.Text.Basic

/-!
# UTF-8

The encoding of texts as bytes and two ways to read bytes as text. `decode` never fails: it puts one
replacement character for each maximal part that no text encodes. `decodeStrict` refuses such bytes
and says where the first faulty part lies and what is wrong with it.

Both read with the same machine, one byte at a time. It is between characters, or it holds the value
of the bytes of a character read so far, how many bytes are owed, and the range that the next of them
must lie in.
-/

namespace Annals

abbrev Bytes := List UInt8

namespace Utf8

def encodeChar (c : Char) : Bytes :=
  let n := c.toNat
  if n < 0x80 then [n.toUInt8]
  else if n < 0x800 then [(0xC0 + n / 64).toUInt8, (0x80 + n % 64).toUInt8]
  else if n < 0x10000 then
    [(0xE0 + n / 4096).toUInt8, (0x80 + n / 64 % 64).toUInt8, (0x80 + n % 64).toUInt8]
  else
    [(0xF0 + n / 262144).toUInt8, (0x80 + n / 4096 % 64).toUInt8, (0x80 + n / 64 % 64).toUInt8,
      (0x80 + n % 64).toUInt8]

def encode (t : Text) : Bytes := t.flatMap encodeChar

inductive Reader where
  | between
  /-- Inside a character: the value of the bytes read, one less than the number of bytes owed, and
  the least and the greatest byte that may come next. -/
  | inside (value owed low high : Nat)
  deriving DecidableEq, Repr

/-- What a byte between characters begins: a character by itself, a longer one, or nothing. -/
inductive Lead where
  | ascii (n : Nat)
  | opens (next : Reader)
  | bad
  deriving DecidableEq, Repr

def lead (b : Nat) : Lead :=
  if b < 0x80 then .ascii b
  else if b < 0xC2 then .bad
  else if b < 0xE0 then .opens (.inside (b - 0xC0) 0 0x80 0xBF)
  else if b = 0xE0 then .opens (.inside 0 1 0xA0 0xBF)
  else if b = 0xED then .opens (.inside 13 1 0x80 0x9F)
  else if b < 0xF0 then .opens (.inside (b - 0xE0) 1 0x80 0xBF)
  else if b = 0xF0 then .opens (.inside 0 2 0x90 0xBF)
  else if b < 0xF4 then .opens (.inside (b - 0xF0) 2 0x80 0xBF)
  else if b = 0xF4 then .opens (.inside 4 2 0x80 0x8F)
  else .bad

/-- The character that stands for a part that cannot be read. -/
def replacement : Char := '\ufffd'

/-- Reads a byte between characters: the text it completes and where the reader stands after it. -/
def start (b : Nat) : Text × Reader :=
  match lead b with
  | .ascii n => ([Char.ofNat n], .between)
  | .opens r => ([], r)
  | .bad => ([replacement], .between)

/-- Reads a byte: the text it completes and where the reader stands after it. A byte that cannot
continue a character ends the faulty part before it and is read again from between characters. -/
def Reader.read (r : Reader) (b : Nat) : Text × Reader :=
  match r with
  | .between => start b
  | .inside value owed low high =>
    if low ≤ b ∧ b ≤ high then
      let value := 64 * value + (b - 0x80)
      match owed with
      | 0 => ([Char.ofNat value], .between)
      | owed + 1 => ([], .inside value owed 0x80 0xBF)
    else
      let (t, r) := start b
      (replacement :: t, r)

/-- What is read of bytes, from where the reader stands. -/
def decodeFrom : Reader → Bytes → Text
  | .between, [] => []
  | .inside .., [] => [replacement]
  | r, b :: bs =>
    let (t, r) := r.read b.toNat
    t ++ decodeFrom r bs

/-- The text that bytes encode, with the replacement character for each part that cannot be read. -/
def decode (bs : Bytes) : Text := decodeFrom .between bs

/-- What is wrong with bytes that encode no text. -/
inductive Flaw where
  | badStart
  /-- A byte that does not continue the character before it. -/
  | badContinuation
  | endsEarly
  deriving DecidableEq, Repr

def Flaw.message : Flaw → Text
  | .badStart => "invalid start byte"
  | .badContinuation => "invalid continuation byte"
  | .endsEarly => "unexpected end of data"

/-- The first faulty part of bytes that encode no text. -/
structure Fault where
  /-- The position of the first byte of the part. -/
  start : Nat
  part : Bytes
  flaw : Flaw
  deriving DecidableEq, Repr

/-- The wording of a fault: the byte and its position, or the first and last position. -/
def Fault.message (f : Fault) : Text :=
  let subject : Text :=
    match f.part with
    | [b] => "byte 0x" ++ Text.hex 2 b.toNat ++ " in position " ++ Text.ofNat f.start
    | bs =>
      "bytes in position " ++ Text.ofNat f.start ++ "-" ++ Text.ofNat (f.start + bs.length - 1)
  "'utf-8' codec can't decode " ++ subject ++ ": " ++ f.flaw.message

/-- Reads bytes from position `pos`, after the bytes of an unfinished character. Gives the text, and
the bytes of the character that is unfinished at the end. -/
def scan : (pos : Nat) → (unfinished : Bytes) → Reader → Bytes → Except Fault (Text × Bytes)
  | _, unfinished, _, [] => .ok ([], unfinished)
  | pos, unfinished, r, b :: bs =>
    match r with
    | .between =>
      match lead b.toNat with
      | .ascii n => (scan (pos + 1) [] .between bs).map fun (t, u) => (Char.ofNat n :: t, u)
      | .opens r => scan (pos + 1) [b] r bs
      | .bad => .error ⟨pos, [b], .badStart⟩
    | .inside value owed low high =>
      if low ≤ b.toNat ∧ b.toNat ≤ high then
        let value := 64 * value + (b.toNat - 0x80)
        match owed with
        | 0 => (scan (pos + 1) [] .between bs).map fun (t, u) => (Char.ofNat value :: t, u)
        | owed + 1 => scan (pos + 1) (unfinished ++ [b]) (.inside value owed 0x80 0xBF) bs
      else .error ⟨pos - unfinished.length, unfinished, .badContinuation⟩

/-- The text that bytes encode, or the first part that no text encodes. -/
def decodeStrict (bs : Bytes) : Except Fault Text :=
  match scan 0 [] .between bs with
  | .error f => .error f
  | .ok (t, []) => .ok t
  | .ok (_, unfinished) => .error ⟨bs.length - unfinished.length, unfinished, .endsEarly⟩

end Utf8

end Annals

import Annals.Text.Utf8

/-!
# Text files read by lines

The lines of a text file end with a newline, a carriage return or both, and each is given with a single
newline in place of its ending. A file is read in blocks, so that bytes that encode no text are noticed
only when their block is read: the lines that end in earlier blocks are given before. The fault is
placed relative to what is then being read: the block, after the bytes of a character left over from
the block before it.
-/

namespace Annals

/-- The text with every line ending replaced by a newline. -/
def unifyNewlines : Text → Text
  | [] => []
  | '\r' :: '\n' :: cs => '\n' :: unifyNewlines cs
  | c :: cs => (if c = '\r' then '\n' else c) :: unifyNewlines cs

/-- The lines of a text, each with its newline; the last may lack one. -/
def linesKept : Text → List Text
  | [] => []
  | c :: cs =>
    if c = '\n' then ['\n'] :: linesKept cs
    else
      match linesKept cs with
      | [] => [[c]]
      | l :: ls => (c :: l) :: ls

/-- The lines that can be read from a file, and the fault that ends the reading, if any. -/
structure LineSource where
  lines : List Text
  fault? : Option Utf8.Fault := none
  deriving DecidableEq, Repr

namespace LineSource

/-- The number of bytes that are read at a time. -/
def blockSize : Nat := 8192

/-- The lines that have ended in a text of which more may follow. A carriage return at its end may
still be the first half of an ending. -/
def endedLines (t : Text) : List Text :=
  let sure := if t.getLast? = some '\r' then t.dropLast else t
  (linesKept (unifyNewlines sure)).filter fun l => l.getLast? = some '\n'

/-- Whether a fault lies in the encoding of a surrogate: its first byte would go on to a character if a
lower continuation byte followed. -/
def atSurrogate (bs : Bytes) (f : Utf8.Fault) : Bool :=
  match bs.drop f.start with
  | b :: c :: _ => b == 0xED && 0xA0 ≤ c && c ≤ 0xBF
  | _ => false

/-- The position of the byte at which a fault is noticed; the end of the file if it is noticed there.
The first two bytes of a surrogate are held to begin a character until a third one is read. -/
def noticedAt (bs : Bytes) (f : Utf8.Fault) : Nat :=
  match f.flaw with
  | .badStart => f.start
  | .badContinuation => if atSurrogate bs f then f.start + 2 else f.start + f.part.length
  | .endsEarly => bs.length

/-- The number of bytes read in blocks before the one in which a fault is noticed. -/
def readBefore (bs : Bytes) (f : Utf8.Fault) : Nat :=
  let n := noticedAt bs f
  if n < bs.length then n / blockSize * blockSize else bs.length

/-- What can be read of a file before a fault in it. Bytes left over from earlier blocks are those of an
unfinished character, or those of the faulty part. -/
def before (bs : Bytes) (f : Utf8.Fault) : LineSource :=
  let read := readBefore bs f
  match Utf8.scan 0 [] .between (bs.take (min read f.start)) with
  | .error _ => ⟨[], some f⟩
  | .ok (t, unfinished) =>
    let leftOver := unfinished.length + (read - f.start)
    ⟨endedLines t, some { f with start := f.start - (read - leftOver) }⟩

def ofBytes (bs : Bytes) : LineSource :=
  match Utf8.decodeStrict bs with
  | .ok t => ⟨linesKept (unifyNewlines t), none⟩
  | .error f => before bs f

end LineSource

end Annals

import Annals.Text.Utf8

/-!
# Lines of output

The lines of a stream of bytes end at newline bytes, and a last line without one counts if it is not
empty. Each line is decoded by itself; a carriage return before the newline belongs to the line.
-/

namespace Annals

/-- The lines of a stream, without their newlines. -/
def byteLines : Bytes → List Bytes
  | [] => []
  | b :: bs =>
    if b = 0x0A then [] :: byteLines bs
    else
      match byteLines bs with
      | [] => [[b]]
      | l :: ls => (b :: l) :: ls

def textLines (bs : Bytes) : List Text := (byteLines bs).map Utf8.decode

end Annals

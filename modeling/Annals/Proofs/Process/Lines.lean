import Annals.Process.Lines
import Annals.Proofs.Text.Utf8

/-!
# Lines that were printed

A process prints lines as texts with a newline after each (`Text.ofLines`). The stream of their bytes is
cut into the same lines again (`textLines_encode_ofLines`), whatever else the lines hold, carriage
returns included.
-/

namespace Annals

/-- The text of lines, with a newline after each. -/
def Text.ofLines (lines : List Text) : Text := lines.flatMap fun line => line ++ ['\n']

theorem Text.ofLines_append (first second : List Text) :
    Text.ofLines (first ++ second) = Text.ofLines first ++ Text.ofLines second :=
  List.flatMap_append

/-- A text before a newline is the lines that it has. -/
theorem Text.ofLines_fields (t : Text) : Text.ofLines (Text.fields '\n' t) = t ++ ['\n'] := by
  have hjoin (a : Text) (ls : List Text) :
      Text.ofLines (a :: ls) = Text.join ['\n'] (a :: ls) ++ ['\n'] := by
    induction ls generalizing a with
    | nil => simp [Text.ofLines, Text.join]
    | cons b ls ih =>
      rw [Text.ofLines, List.flatMap_cons, ← Text.ofLines, ih]
      simp [Text.join, List.intercalate_cons_cons]
  cases h : Text.fields '\n' t with
  | nil => exact absurd h (Text.fields_ne_nil '\n' t)
  | cons a ls => rw [hjoin, ← h, Text.join_fields]

theorem byteLines_append {line : Bytes} (rest : Bytes) (h : 0x0A ∉ line) :
    byteLines (line ++ 0x0A :: rest) = line :: byteLines rest := by
  induction line with
  | nil => simp [byteLines]
  | cons b bs ih =>
    have hb : b ≠ 0x0A := fun hb => h (hb ▸ List.mem_cons_self)
    rw [List.cons_append, byteLines, if_neg hb, ih fun hbs => h (List.mem_cons_of_mem b hbs)]

/-- What is printed line by line is read line by line. -/
theorem textLines_encode_ofLines {lines : List Text} (h : ∀ line ∈ lines, '\n' ∉ line) :
    textLines (Utf8.encode (Text.ofLines lines)) = lines := by
  induction lines with
  | nil => rfl
  | cons line lines ih =>
    have hline : 0x0A ∉ Utf8.encode line :=
      fun hmem => h line List.mem_cons_self (Utf8.newline_mem_encode.1 hmem)
    have hbytes : Utf8.encode (Text.ofLines (line :: lines)) =
        Utf8.encode line ++ 0x0A :: Utf8.encode (Text.ofLines lines) := by
      rw [Text.ofLines, List.flatMap_cons, List.append_assoc, Utf8.encode, List.flatMap_append]
      rfl
    rw [textLines, hbytes, byteLines_append _ hline, List.map_cons, Utf8.decode_encode]
    exact congrArg (line :: ·) (ih fun l hl => h l (List.mem_cons_of_mem line hl))

end Annals

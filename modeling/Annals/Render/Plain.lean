import Annals.History.Annotation
import Annals.History.Tag
import Annals.Text.Blank

/-!
# Reports for people

Histories as blocks of lines, annotations and lists of tags as tables.
-/

namespace Annals

def Text.unlines (lines : List Text) : Text := Text.join "\n" lines

/-- The longest length among texts; 0 if there are none. -/
def widest (ts : List Text) : Nat := (ts.map List.length).foldl max 0

namespace Entry

/-- The tags of an entry in brackets behind a blank, if there are any. -/
def tagList (e : Entry) : Text :=
  if e.tags.isEmpty then [] else " (" ++ Text.join ", " e.tags ++ ")"

/-- The first line of an entry: its revision and its tags. -/
def titleLine (e : Entry) : Text := "revision " ++ e.revision ++ e.tagList

def messageLine (line : Text) : Text := "    " ++ line

/-- The line about a rename, if there was one. -/
def renameLines (e : Entry) : List Text :=
  match e.renamedFrom with
  | some (c :: cs) => [("Renamed from: " : Text) ++ c :: cs]
  | _ => []

/-- The lines of an entry: those about it, a blank one, and those of the message. -/
def lines (e : Entry) : List Text :=
  e.titleLine :: ("Author: " ++ e.author) :: ("Date:   " ++ e.date.display) ::
    (e.renameLines ++ [] :: e.message.map messageLine)

end Entry

/-- A history as blocks of lines with a line between them. -/
def History.plain (h : History) : Text :=
  if h.isEmpty then "No history found"
  else Text.join "\n\n" (h.map fun e => Text.unlines e.lines)

namespace Annotation

/-- A line of an annotation in columns of given widths. -/
def row (numberWidth revisionWidth authorWidth : Nat) (l : AnnotatedLine) : Text :=
  Text.padLeft numberWidth (Text.ofInt l.number) ++ " " ++ Text.padRight revisionWidth l.revision ++
    " " ++ Text.padRight authorWidth l.author ++ " " ++ l.text

/-- An annotation as a table: number, revision, author and text. -/
def plain (a : Annotation) : Text :=
  if a.lines.isEmpty then "No lines"
  else
    Text.unlines
      (a.lines.map
        (row (Text.ofNat a.lines.length).length (widest (a.lines.map (·.revision)))
          (widest (a.lines.map (·.author)))))

end Annotation

namespace Tag

/-- The cells of a tag record: revision, date and names. -/
def cells (t : Tag) : List Text := [t.revision, t.date.display, Text.join ", " t.names]

def heads : List Text := ["REVISION", "DATE", "TAGS"]

/-- A row of cells, padded to widths and with two blanks between them. -/
def tableRow (widths : List Nat) (cells : List Text) : Text :=
  Text.trimEnd (Text.join "  " (List.zipWith Text.padRight widths cells))

/-- The widths of the columns of a table. -/
def columnWidths (rows : List (List Text)) : List Nat :=
  (List.range heads.length).map fun i => widest (rows.map fun row => row[i]?.getD [])

/-- A list of tags as a table under its heads. -/
def table (tags : List Tag) : Text :=
  if tags.isEmpty then "No tags found"
  else
    let rows := heads :: tags.map cells
    Text.unlines (rows.map (tableRow (columnWidths rows)))

end Tag

end Annals

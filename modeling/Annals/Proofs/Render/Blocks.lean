import Annals.Environment
import Annals.Render.Plain
import Annals.Proofs.History.Segments
import Annals.Proofs.Text.Digits
import Annals.Proofs.Text.Fields
import Mathlib.Tactic.SplitIfs

/-!
# Printed histories

A history is printed as blocks of lines. Every block begins with a title, which no other line looks like:
the lines about an entry begin with names of their own, and the lines of its message with blanks. So the
titles of a printed history are those of its entries (`History.cut_printedLines`), and what stands below
each of them is read back (`Shown.ofLines?_body`), whatever the entries hold.
-/

namespace Annals

namespace Text

/-- Blocks of lines are joined by two separators, so that there is an empty line between them. -/
theorem join_blocks (sep : Char) {blocks : List (List Text)} (h : ∀ lines ∈ blocks, lines ≠ []) :
    join [sep, sep] (blocks.map (join [sep])) = join [sep] (List.intercalate [[]] blocks) := by
  induction blocks with
  | nil => rfl
  | cons lines blocks ih =>
    obtain ⟨hlines, hblocks⟩ := List.forall_mem_cons.1 h
    cases blocks with
    | nil => rw [List.map_singleton, join, List.intercalate_singleton, List.intercalate_singleton]
    | cons next blocks =>
      have hrest : List.intercalate [[]] (next :: blocks) ≠ [] := by
        obtain ⟨line, rest, rfl⟩ := List.exists_cons_of_ne_nil (hblocks next List.mem_cons_self)
        cases blocks <;> simp
      have hgap : join [sep] ([] :: List.intercalate [[]] (next :: blocks)) =
          sep :: join [sep, sep] ((next :: blocks).map (join [sep])) := by
        rw [ih hblocks]
        exact join_append sep (List.cons_ne_nil [] []) hrest
      rw [List.intercalate_cons_cons, List.append_assoc,
        join_append sep hlines (by simp), List.singleton_append, hgap, List.map_cons, List.map_cons,
        join, List.intercalate_cons_cons, List.append_assoc]
      rfl

theorem newline_notMem_ofNatPadded (w n : Nat) : '\n' ∉ ofNatPadded w n :=
  fun h => absurd (isDigit_of_mem_ofNatPadded h) (by decide)

theorem newline_notMem_ofNat (n : Nat) : '\n' ∉ ofNat n := fun h => by
  have hdigit : '\n'.isDigit = true := Nat.isDigit_of_mem_toDigits (by decide) (by decide) h
  exact absurd hdigit (by decide)

end Text

namespace Moment

theorem newline_notMem_offsetText (offset : Int) : '\n' ∉ offsetText offset := by
  unfold offsetText
  simp only [List.mem_append, not_or]
  split_ifs <;> simp [Text.newline_notMem_ofNatPadded]

theorem newline_notMem_zoneName (m : Moment) : '\n' ∉ m.zoneName := by
  unfold zoneName
  split
  · exact List.not_mem_nil
  · split <;> simp [newline_notMem_offsetText]

theorem newline_notMem_display (m : Moment) : '\n' ∉ m.display := by
  simp [display, monthDayText, clockText, newline_notMem_zoneName, Text.newline_notMem_ofNatPadded,
    Text.newline_notMem_ofNat]

end Moment

/-- Whether a line begins as the first line of an entry does. -/
def isTitle (line : Text) : Bool := Text.startsWith "revision " line

namespace Entry

/-- The lines of an entry below its title. -/
def body (e : Entry) : List Text :=
  ("Author: " ++ e.author) :: ("Date:   " ++ e.date.display) ::
    (e.renameLines ++ [] :: e.message.map messageLine)

/-- Whether no text of an entry that is printed holds the end of a line. -/
structure FitsLines (e : Entry) : Prop where
  revision : '\n' ∉ e.revision
  tags : ∀ tag ∈ e.tags, '\n' ∉ tag
  author : '\n' ∉ e.author
  renamedFrom : ∀ path ∈ e.renamedFrom, '\n' ∉ path
  message : ∀ line ∈ e.message, '\n' ∉ line

variable {e : Entry}

theorem lines_eq (e : Entry) : e.lines = e.titleLine :: e.body := rfl

theorem renameLines_eq (e : Entry) :
    e.renameLines =
      (e.renamedFrom.bind Text.nonEmpty?).toList.map (("Renamed from: " : Text) ++ ·) := by
  unfold renameLines
  rcases e.renamedFrom with _ | _ | ⟨c, cs⟩ <;> rfl

theorem isTitle_titleLine (e : Entry) : isTitle e.titleLine = true := rfl

theorem isTitle_of_mem_body : ∀ line ∈ e.body, isTitle line = false := by
  intro line hline
  simp only [body, renameLines_eq, List.mem_cons, List.mem_append, List.mem_map] at hline
  rcases hline with rfl | rfl | ⟨path, -, rfl⟩ | rfl | ⟨text, -, rfl⟩ <;> rfl

namespace FitsLines

theorem titleLine (h : e.FitsLines) : '\n' ∉ e.titleLine := by
  have htags : '\n' ∉ Text.join ", " e.tags := Text.notMem_join (by decide) h.tags
  refine List.not_mem_append (List.not_mem_append (by decide) h.revision) ?_
  rw [tagList]
  split
  · exact List.not_mem_nil
  · exact List.not_mem_append (List.not_mem_append (by decide) htags) (by decide)

theorem body (h : e.FitsLines) : ∀ line ∈ e.body, '\n' ∉ line := by
  intro line hline
  simp only [Entry.body, renameLines_eq, List.mem_cons, List.mem_append, List.mem_map] at hline
  rcases hline with rfl | rfl | ⟨path, hpath, rfl⟩ | rfl | ⟨text, htext, rfl⟩
  · exact List.not_mem_append (by decide) h.author
  · exact List.not_mem_append (by decide) e.date.newline_notMem_display
  · obtain ⟨renamed, hrenamed, hpath⟩ := Option.bind_eq_some_iff.1 (Option.mem_toList.1 hpath)
    obtain rfl : path = renamed := Text.eq_of_nonEmpty?_eq_some hpath
    exact List.not_mem_append (by decide) (h.renamedFrom _ hrenamed)
  · exact List.not_mem_nil
  · exact List.not_mem_append (by decide) (h.message text htext)

end FitsLines

end Entry

/-- What is printed of an entry below its title. -/
structure Shown where
  author : Text
  date : Text
  renamedFrom : Option Text
  message : List Text
  deriving DecidableEq

/-- What is printed of an entry; an empty path before a rename is as good as none. -/
def Entry.shown (e : Entry) : Shown where
  author := e.author
  date := e.date.display
  renamedFrom := e.renamedFrom.bind Text.nonEmpty?
  message := e.message

namespace Shown

/-- Reads the lines below a title. -/
def ofLines? : List Text → Option Shown
  | author :: date :: rest => do
    let author ← Text.after? "Author: " author
    let date ← Text.after? "Date:   " date
    return {
      author, date
      renamedFrom := rest.head?.bind (Text.after? "Renamed from: ")
      message := rest.filterMap (Text.after? "    ") }
  | _ => none

/-- What stands below a title is read back, whatever empty lines there are behind it. -/
theorem ofLines?_body (e : Entry) {gap : List Text} (hgap : ∀ line ∈ gap, line = []) :
    ofLines? (e.body ++ gap) = some e.shown := by
  let rest := e.renameLines ++ [] :: e.message.map Entry.messageLine ++ gap
  have hafter (start t : Text) : Text.after? start (start ++ t) = some t :=
    Text.after?_eq_some_iff.2 rfl
  have hrename : rest.head?.bind (Text.after? "Renamed from: ") =
      e.renamedFrom.bind Text.nonEmpty? := by
    simp only [rest, Entry.renameLines_eq]
    cases e.renamedFrom.bind Text.nonEmpty? with
    | none => rfl
    | some path => exact hafter _ path
  have hmessage : rest.filterMap (Text.after? "    ") = e.message := by
    have hheads : e.renameLines.filterMap (Text.after? "    ") = [] := by
      rw [Entry.renameLines_eq]
      cases e.renamedFrom.bind Text.nonEmpty? <;> rfl
    have hgap' : gap.filterMap (Text.after? "    ") = [] :=
      List.filterMap_eq_nil_iff.2 fun line hline => by rw [hgap line hline]; rfl
    have htexts : (e.message.map Entry.messageLine).filterMap (Text.after? "    ") = e.message := by
      rw [List.filterMap_map]
      exact (List.filterMap_congr fun line _ => hafter _ line).trans List.filterMap_some
    rw [List.filterMap_append, List.filterMap_append, hheads, hgap', List.append_nil]
    exact htexts
  change (do
    let author ← Text.after? "Author: " ("Author: " ++ e.author)
    let date ← Text.after? "Date:   " ("Date:   " ++ e.date.display)
    return Shown.mk author date (rest.head?.bind (Text.after? "Renamed from: "))
      (rest.filterMap (Text.after? "    "))) = _
  rw [hafter, hafter, hrename, hmessage]
  rfl

end Shown

/-! ## Whole histories -/

namespace History

/-- The lines of a history, with an empty one between entries. -/
def printedLines (h : History) : List Text := List.intercalate [[]] (h.map Entry.lines)

theorem printedLines_singleton (e : Entry) : printedLines [e] = e.titleLine :: e.body := by
  rw [printedLines, List.map_singleton, List.intercalate_singleton, Entry.lines_eq]

theorem printedLines_cons_cons (e next : Entry) (h : History) :
    printedLines (e :: next :: h) = e.titleLine :: (e.body ++ [[]] ++ printedLines (next :: h)) := by
  rw [printedLines, List.map_cons, List.map_cons, List.intercalate_cons_cons]
  rfl

theorem plain_eq {h : History} (hne : h ≠ []) : h.plain = Text.join ['\n'] h.printedLines := by
  have hblocks : ∀ lines ∈ h.map Entry.lines, lines ≠ [] := by
    rintro lines hlines rfl
    obtain ⟨e, -, he⟩ := List.mem_map.1 hlines
    exact nomatch he
  rw [plain, if_neg (by simpa using hne), printedLines, ← Text.join_blocks '\n' hblocks, List.map_map]
  rfl

theorem newline_notMem_printedLines {h : History} (hfits : ∀ e ∈ h, e.FitsLines) :
    ∀ line ∈ h.printedLines, '\n' ∉ line := by
  induction h with
  | nil => exact nofun
  | cons e h ih =>
    obtain ⟨he, hh⟩ := List.forall_mem_cons.1 hfits
    cases h with
    | nil =>
      rw [printedLines_singleton]
      exact List.forall_mem_cons.2 ⟨he.titleLine, he.body⟩
    | cons next h =>
      rw [printedLines_cons_cons, List.forall_mem_cons, List.forall_mem_append,
        List.forall_mem_append, List.forall_mem_singleton]
      exact ⟨he.titleLine, ⟨he.body, List.not_mem_nil⟩, ih hh⟩

/-- The lines of a history are cut at the titles of its entries, and what stands below each of them is
read back. -/
theorem cut_printedLines {h : History} (hne : h ≠ []) :
    (Cut.ofLines h.printedLines : Cut isTitle).before = [] ∧
      (Cut.ofLines h.printedLines : Cut isTitle).segments.map
          (fun seg => (seg.header, Shown.ofLines? seg.body)) =
        h.map fun e => (e.titleLine, some e.shown) := by
  have hread (c : Cut isTitle) : c.segments.map (fun seg => (seg.header, Shown.ofLines? seg.body)) =
      (c.segments.map fun seg => (seg.header, seg.body)).map fun block =>
        (block.1, Shown.ofLines? block.2) := by
    rw [List.map_map]
    rfl
  induction h with
  | nil => exact absurd rfl hne
  | cons e h ih =>
    cases h with
    | nil =>
      obtain ⟨hbefore, hsegments⟩ := Cut.ofLines_block e.isTitle_titleLine e.isTitle_of_mem_body []
      rw [printedLines_singleton, ← List.append_nil e.body, hread, hsegments]
      exact ⟨hbefore, congrArg (fun shown => [(e.titleLine, shown)]) (Shown.ofLines?_body e nofun)⟩
    | cons next h =>
      -- the empty line before the next title is the end of the block
      have hbody : ∀ line ∈ e.body ++ [[]], isTitle line = false :=
        List.forall_mem_append.2 ⟨e.isTitle_of_mem_body, List.forall_mem_singleton.2 rfl⟩
      obtain ⟨hbefore, hsegments⟩ :=
        Cut.ofLines_block e.isTitle_titleLine hbody (printedLines (next :: h))
      obtain ⟨hnext, hrest⟩ := ih (List.cons_ne_nil next h)
      rw [printedLines_cons_cons, hread, hsegments, List.map_cons, ← hread, hrest, hnext,
        List.append_nil, Shown.ofLines?_body e (List.forall_mem_singleton.2 rfl)]
      exact ⟨hbefore, rfl⟩

/-- No text of an entry adds a record to a printed history, or hides, merges or splits one: the lines that
look like titles are the titles of the entries, in their order, and the author, the date, the path before
a rename and the lines of the message are read from what stands below each of them. -/
theorem plain_not_forged {h : History} (hne : h ≠ []) (hfits : ∀ e ∈ h, e.FitsLines) :
    let lines := Text.fields '\n' h.plain
    let cut : Cut isTitle := Cut.ofLines lines
    lines.filter isTitle = h.map Entry.titleLine ∧ cut.before = [] ∧
      cut.segments.map (fun seg => (seg.header, Shown.ofLines? seg.body)) =
        h.map fun e => (e.titleLine, some e.shown) := by
  intro lines cut
  have hlines : lines = h.printedLines := by
    have hprinted : h.printedLines ≠ [] := by
      obtain ⟨e, h, rfl⟩ := List.exists_cons_of_ne_nil hne
      cases h with
      | nil => exact List.cons_ne_nil _ _
      | cons next h => rw [printedLines_cons_cons]; exact List.cons_ne_nil _ _
    have hplain : h.plain = Text.join ['\n'] h.printedLines := plain_eq hne
    rw [← Text.fields_join hprinted (newline_notMem_printedLines hfits), ← hplain]
  obtain ⟨hbefore, hsegments⟩ := cut_printedLines hne
  rw [← hlines] at hbefore hsegments
  refine ⟨?_, hbefore, hsegments⟩
  have hcut : cut.lines = lines := Cut.lines_ofLines lines
  have htitles := congrArg (List.map Prod.fst) hsegments
  rw [List.map_map, List.map_map] at htitles
  rw [← hcut, Cut.filter_lines]
  exact htitles

/-- A message that looks like a record and has empty lines, and an entry without a message. -/
theorem plain_not_forged_of_titles_in_message :
    let date : Moment := .utc ⟨2020, 1, 1, 0, 0, 0, 0⟩
    let message : List Text := ["revision 9", "", "Author: b", "    revision 8"]
    let h : History := [
      { revision := "2", author := "a", date, message, renamedFrom := some "revision 7" },
      { revision := "1", author := "revision 6", date, renamedFrom := some "", tags := ["v1"] }]
    (Text.fields '\n' h.plain).filter isTitle = ["revision 2".toList, "revision 1 (v1)".toList] ∧
      (Cut.ofLines (Text.fields '\n' h.plain) : Cut isTitle).segments.map
          (fun seg => (Shown.ofLines? seg.body).map (·.message)) = [some message, some []] := by
  intro date message h
  have hfits : ∀ e ∈ h, e.FitsLines := by
    refine List.forall_mem_cons.2 ⟨?_, List.forall_mem_singleton.2 ?_⟩
    all_goals exact ⟨by decide, by decide, by decide, by decide, by decide⟩
  obtain ⟨htitles, -, hsegments⟩ := plain_not_forged (List.cons_ne_nil _ _) hfits
  refine ⟨htitles, ?_⟩
  have hmessages := congrArg (List.map fun block => block.2.map Shown.message) hsegments
  rw [List.map_map, List.map_map] at hmessages
  exact hmessages

end History

end Annals

import Annals.Proofs.Repository.BestEffort
import Annals.Proofs.Text.Fields
import Annals.Proofs.Text.Utf8

/-!
# Tracked files

BitKeeper is asked about a file by its name, and prints the names of those that it tracks. What it prints
is trimmed before it is compared with the name, so that not only the end of the line does not count but
none of the blanks around the name (`judges_iff`). A file whose own name begins or ends with a blank is
therefore never found to be tracked, and another name stands for that of the file if it only has blanks
around it (`judges_printed`, `not_judges_printed`).
-/

namespace Annals

theorem Files.name_absolute (fs : Files) {p : Path} {name : Text} (h : p.parts.getLast? = some name) :
    (fs.absolute p).name = name := by
  rw [absolute, Path.join, Path.name]
  split
  · rw [h]
    rfl
  · rw [List.getLast?_append, h]
    rfl

namespace Repository

/-- Whether a file is judged to be tracked or not, and to have lines that can be traced or not. -/
def Judges (r : Repository) (w : World) (s : Session) (file : Path) (tracked : Bool) : Prop :=
  ((r.isTracked w file).runOn s).1 = .ok tracked ∧ ((r.isAnnotatable w file).runOn s).1 = .ok tracked

variable {r : Repository} {w : World} {s : Session} {file : Path} {name : Text} {e : Exit}

/-- An exit with status 0 tells that a file is tracked if the name of the file is printed, with or without
blanks around it. -/
theorem judges_iff (hbackend : r.backend = .bitkeeper) (hname : file.parts.getLast? = some name)
    (hend : (w.outcome s.runs (r.trackingCommand w s file).argv).EndsWith
      (r.trackingCommand w s file).timeout e) (hcode : e.code = 0) {tracked : Bool} :
    r.Judges w s file tracked ↔ tracked = decide ((Utf8.decode e.stdout).Pads name) := by
  have hanswers := r.answers_isTracked w s file
  simp only [((r.trackingCommand w s file).ending_eq_ok_iff _).mpr hend, Except.map, bestEffort,
    if_pos hcode, hbackend, w.files.name_absolute hname] at hanswers
  obtain ⟨s', notes, hrun, -⟩ := hanswers
  have hanswer : ((r.isTracked w file).runOn s).1 = .ok (decide ((Utf8.decode e.stdout).Pads name)) := by
    rw [hrun]
    exact congrArg Except.ok (decide_eq_decide.mpr Text.trim_eq_iff)
  have hsame : ((r.isAnnotatable w file).runOn s).1 = ((r.isTracked w file).runOn s).1 := rfl
  rw [Judges, hsame, hanswer, and_self]
  exact ⟨fun h => (Except.ok.inj h).symm, fun h => congrArg Except.ok h.symm⟩

theorem argv_trackingCommand (hbackend : r.backend = .bitkeeper)
    (hname : file.parts.getLast? = some name) :
    (r.trackingCommand w s file).argv = [r.executable w s, "files", name] := by
  rw [trackingCommand, hbackend, w.files.name_absolute hname]
  rfl

/-- A name with a line end is printed for the file exactly if the file's own name is trimmed and all that
is printed around it is blank. -/
theorem pads_decode_line {printed : Text} (hstdout : e.stdout = Utf8.encode (printed ++ ['\n'])) :
    (Utf8.decode e.stdout).Pads name ↔ printed.Pads name := by
  rw [hstdout, Utf8.decode_encode, ← Text.trim_eq_iff, ← Text.trim_eq_iff, Text.trim_concat (by decide)]

/-- If nothing is printed, a file is judged not to be tracked. If its name is printed, it is judged to be
tracked exactly if the name neither begins nor ends with a blank. If another name is printed, it is judged
not to be tracked unless that is its name with blanks around it. -/
theorem judges_printed (r : Repository) (w : World) (s : Session) (file : Path) (name : Text) (e : Exit)
    (hbackend : r.backend = .bitkeeper) (hname : file.parts.getLast? = some name) (hne : name ≠ [])
    (hend : (w.outcome s.runs (r.trackingCommand w s file).argv).EndsWith
      (r.trackingCommand w s file).timeout e) (hcode : e.code = 0) :
    (r.trackingCommand w s file).argv = [r.executable w s, "files", name] ∧
    (r.Judges w s file true ∨ r.Judges w s file false) ∧
    (e.stdout = [] → r.Judges w s file false) ∧
    ∀ printed, e.stdout = Utf8.encode (printed ++ ['\n']) →
      (printed = name → (r.Judges w s file true ↔ name.IsTrimmed)) ∧
      (printed ≠ name → (r.Judges w s file false ↔ ¬printed.Pads name)) := by
  have hjudges (tracked : Bool) :
      r.Judges w s file tracked ↔ tracked = decide ((Utf8.decode e.stdout).Pads name) :=
    judges_iff hbackend hname hend hcode
  refine ⟨argv_trackingCommand hbackend hname, ?_, fun hempty => ?_, fun printed hstdout => ⟨?_, ?_⟩⟩
  · rw [hjudges, hjudges]
    cases decide ((Utf8.decode e.stdout).Pads name) <;> simp
  · have hnone : ¬(Utf8.decode []).Pads name := fun h => hne (Text.trim_eq_iff.mpr h).symm
    rw [hjudges, hempty]
    exact (decide_eq_false hnone).symm
  · rintro rfl
    rw [hjudges, eq_comm, decide_eq_true_iff, pads_decode_line hstdout, Text.pads_self_iff]
  · intro _
    rw [hjudges, eq_comm, decide_eq_false_iff_not, pads_decode_line hstdout]

/-- A blank in the middle of a name counts, and other names do not. -/
theorem judges_printed_of_inner_blank :
    let r : Repository := { backend := .bitkeeper, root := .root }
    let printing (line : Text) : World := .exiting { stdout := Utf8.encode line }
    r.Judges (printing "foo bar.c\n") {} (.ofText "/src/foo bar.c") true ∧
      r.Judges (printing "foobar.c\n") {} (.ofText "/src/foo bar.c") false := by
  intro r printing
  have hprinted (line : Text) := judges_printed r (printing line) {} (.ofText "/src/foo bar.c")
    "foo bar.c" { stdout := Utf8.encode line } rfl (by decide) (by decide) (.inl rfl) rfl
  obtain ⟨-, -, -, hsame⟩ := hprinted "foo bar.c\n"
  obtain ⟨-, -, -, hother⟩ := hprinted "foobar.c\n"
  exact ⟨((hsame "foo bar.c" rfl).1 rfl).mpr (by decide),
    ((hother "foobar.c" rfl).2 (by decide)).mpr (by decide)⟩

/-- A file whose name begins with a blank is not found to be tracked. -/
theorem not_judges_printed :
    ¬∀ (r : Repository) (w : World) (s : Session) (file : Path) (name : Text) (e : Exit),
      r.backend = .bitkeeper → file.parts.getLast? = some name → name ≠ [] →
      (w.outcome s.runs (r.trackingCommand w s file).argv).EndsWith
        (r.trackingCommand w s file).timeout e → e.code = 0 →
      ∀ printed, e.stdout = Utf8.encode (printed ++ ['\n']) →
        r.Judges w s file (decide (printed = name)) := by
  intro h
  let r : Repository := { backend := .bitkeeper, root := .root }
  let e : Exit := { stdout := Utf8.encode " foo.c\n" }
  have hname : (Path.ofText "/ foo.c").parts.getLast? = some " foo.c".toList := by decide
  have hstdout : e.stdout = Utf8.encode (" foo.c".toList ++ ['\n']) := rfl
  have hjudged := h r (.exiting e) {} (.ofText "/ foo.c") " foo.c" e rfl hname (by decide) (.inl rfl)
    rfl " foo.c" hstdout
  have hpads := decide_eq_decide.mp ((judges_iff rfl hname (.inl rfl) rfl).mp hjudged)
  rw [eq_self, true_iff, pads_decode_line hstdout, Text.pads_self_iff] at hpads
  exact absurd hpads (by decide)

end Repository

end Annals

import Annals.Proofs.BitKeeper.Annotate
import Annals.Proofs.Repository.Tasks
import Annals.Proofs.Text.Newlines

/-!
# Annotations of BitKeeper files

The bytes that are printed are cut into lines, and each line becomes one record, which is written as the
same line again; or the tool is stopped at the first line that cannot become one, and there is no
annotation (`annotate_lossless`).
-/

namespace Annals.Repository

open BitKeeper

variable {r : Repository} {w : World} {s : Session} {file full : Path} {revision? : Option Text}
  {e : Exit}

/-- The path of a file is followed before anything else is done. -/
theorem runOn_annotate_bitkeeper (s : Session) (hbackend : r.backend = .bitkeeper)
    (hfile : w.files.resolve file = .ok full) (revision? : Option Text) :
    ∃ g : AnnotationReader × Except ProcessFailure Result → Work Annotation,
      (r.annotate w file revision?).runOn s =
        (r.stream w (some full.parent) (annotationArgs r.backend full.name revision?)
          AnnotationReader.feed { filename := full.name } >>= g).runOn s := by
  obtain ⟨backend, root, config⟩ := r
  obtain rfl : backend = .bitkeeper := hbackend
  rw [annotate, Work.runOn_lookUp_bind_of_ok hfile]
  exact ⟨_, rfl⟩

/-- If every line is attributed, the records are all lines. -/
theorem annotate_of_isAttributed (hbackend : r.backend = .bitkeeper)
    (hfile : w.files.resolve file = .ok full)
    (hend : (w.outcome s.runs (r.annotationTask w s full revision?).command.argv).EndsWith
      (r.annotationTask w s full revision?).limit? e) (hcode : e.code = 0)
    (h : ∀ line ∈ textLines e.stdout, IsAttributed line) :
    ∃ a, ((r.annotate w file revision?).runOn s).1 = .ok a ∧ a.filename = full.name ∧
      Attributes a.lines (textLines e.stdout) := by
  have hlines : (r.annotationTask w s full revision?).refusal? (textLines e.stdout) = none := by
    have htaken : (Fed.all AnnotationReader.feed { filename := full.name }
      (textLines e.stdout)).failure? = none := AnnotationReader.failure?_all_eq_none_iff.mpr h
    rw [annotationTask, streamTask, hbackend]
    exact htaken
  have hsettle := Task.settle_of_endsWith (Task.accepts_of_prints hend.prints hlines) hend
  rw [if_pos (Task.answers_of_success _ e hcode)] at hsettle
  have hanswer := answer_annotate (r := r) (s := s) hfile revision?
  simp only [hsettle, hbackend] at hanswer
  refine ⟨_, hanswer, AnnotationReader.filename_all _ _, ?_⟩
  have hrecords := AnnotationReader.all_of_isAttributed (r := { filename := full.name }) .nil h
  rwa [List.nil_append] at hrecords

/-- If a line is not attributed, the first such line ends the tool, and there is no annotation. -/
theorem annotate_of_not_isAttributed (hbackend : r.backend = .bitkeeper)
    (hfile : w.files.resolve file = .ok full)
    (hprints : (w.outcome s.runs (r.annotationTask w s full revision?).command.argv).Prints e)
    (h : ¬∀ line ∈ textLines e.stdout, IsAttributed line) :
    ∃ before line after run, textLines e.stdout = before ++ line :: after ∧
      (∀ line ∈ before, IsAttributed line) ∧ ¬IsAttributed line ∧
      ((r.annotate w file revision?).runOn s).1 =
        .error (.malformed (.annotationLine (before.length + 1) full.name line)) ∧
      ((r.annotate w file revision?).runOn s).2.runs = s.runs ++ [run] ∧
      run.command = (r.annotationTask w s full revision?).command ∧ run.killed = true := by
  obtain ⟨before, line, after, hlines, hbefore, hline, hrefused⟩ :=
    AnnotationReader.exists_refused full.name h
  obtain ⟨g, hrun⟩ := runOn_annotate_bitkeeper s hbackend hfile revision?
  obtain ⟨run, hcommand, hkilled, hresult, hruns⟩ := runOn_stream_of_refused hprints hrefused g
  rw [← hrun] at hresult hruns
  exact ⟨before, line, after, run, hlines, hbefore, hline, hresult, hruns, hcommand, hkilled⟩

theorem prefix_message (number : Nat) (filename line : Text) :
    ("Malformed annotation line " : Text) ++ Text.ofNat number <+:
      Failure.message (.malformed (.annotationLine number filename line)) := by
  have hmessage (start number for_ name colon line : Text) :
      start ++ number <+: start ++ number ++ for_ ++ name ++ colon ++ line :=
    ⟨for_ ++ name ++ colon ++ line, by simp only [List.append_assoc]⟩
  exact hmessage _ _ _ _ _ _

/-- Of a file in a BitKeeper repository all lines are annotated or none. If every line that is printed has
an author and a revision, the records are those lines, in order and numbered from 1 on, and nothing of
them is lost. If not, the first line without is told of with its number, the tool has been stopped, and
there is no annotation. -/
theorem annotate_lossless (r : Repository) (w : World) (s : Session) (file full : Path)
    (revision? : Option Text) (e : Exit) (hbackend : r.backend = .bitkeeper)
    (hfile : w.files.resolve file = .ok full)
    (hend : (w.outcome s.runs (r.annotationTask w s full revision?).command.argv).EndsWith
      (r.annotationTask w s full revision?).limit? e) (hcode : e.code = 0) :
    let lines := Text.linesOf (Utf8.decode e.stdout)
    let answer := (r.annotate w file revision?).runOn s
    ((∃ a, answer.1 = .ok a) ↔ ∀ line ∈ lines, IsAttributed line) ∧
    (∀ a, answer.1 = .ok a → a.filename = full.name ∧ Attributes a.lines lines) ∧
    ((¬∀ line ∈ lines, IsAttributed line) → ∃ before line after run f,
      lines = before ++ line :: after ∧ (∀ line ∈ before, IsAttributed line) ∧ ¬IsAttributed line ∧
      answer.1 = .error f ∧ f.kind = .reported .malformedOutput ∧
      f = .malformed (.annotationLine (before.length + 1) full.name line) ∧
      ("Malformed annotation line " : Text) ++ Text.ofNat (before.length + 1) <+: f.message ∧
      answer.2.runs = s.runs ++ [run] ∧
      run.command = (r.annotationTask w s full revision?).command ∧ run.killed = true) := by
  intro lines answer
  have hlines : textLines e.stdout = lines := textLines_eq_linesOf e.stdout
  by_cases hall : ∀ line ∈ textLines e.stdout, IsAttributed line
  · obtain ⟨a, ha, hattributes⟩ := annotate_of_isAttributed hbackend hfile hend hcode hall
    rw [hlines] at hall hattributes
    refine ⟨⟨fun _ => hall, fun _ => ⟨a, ha⟩⟩, ?_, fun hnot => absurd hall hnot⟩
    intro a' ha'
    obtain rfl : a = a' := Except.ok.inj (ha.symm.trans ha')
    exact hattributes
  · obtain ⟨before, line, after, run, hcut, hbefore, hline, hresult, hrun⟩ :=
      annotate_of_not_isAttributed hbackend hfile hend.prints hall
    have hnone (a : Annotation) : answer.1 ≠ .ok a := by
      intro ha
      exact nomatch hresult.symm.trans ha
    rw [hlines] at hall hcut
    refine ⟨⟨fun ⟨a, ha⟩ => absurd ha (hnone a), fun h => absurd h hall⟩,
      fun a ha => absurd ha (hnone a), fun _ => ?_⟩
    exact ⟨before, line, after, run, _, hcut, hbefore, hline, hresult, rfl, rfl,
      prefix_message _ _ _, hrun⟩

/-- Lines with a third tab, a carriage return, no text, and bytes that are no character. -/
theorem annotate_lossless_of_three_lines :
    let stdout : Bytes := Utf8.encode "ann\t1.1\tx\ty\r\nbob\t1.2\t\n" ++ [0xFF, 0x09, 0x31, 0x09]
    let w : World := { outcome := fun _ _ => .exits { stdout } }
    let r : Repository := { backend := .bitkeeper, root := .root }
    ∃ a, ((r.annotate w (.ofText "/f") none).runOn {}).1 = .ok a ∧
      a.lines.map AnnotatedLine.written =
        ["ann\t1.1\tx\ty\r".toList, "bob\t1.2\t".toList, "\ufffd\t1\t".toList] := by
  intro stdout w r
  have hfile : w.files.resolve (.ofText "/f") = .ok (.ofText "/f") := by decide +kernel
  obtain ⟨hiff, hread, -⟩ := annotate_lossless r w {} (.ofText "/f") (.ofText "/f") none { stdout } rfl
    hfile (.inl rfl) rfl
  have hlines : Text.linesOf (Utf8.decode stdout) =
      ["ann\t1.1\tx\ty\r".toList, "bob\t1.2\t".toList, "\ufffd\t1\t".toList] := by
    decide +kernel
  have hall : ∀ line ∈ Text.linesOf (Utf8.decode stdout), IsAttributed line := by
    rw [hlines]
    decide
  obtain ⟨a, ha⟩ := hiff.2 hall
  exact ⟨a, ha, (hread a ha).2.written.trans hlines⟩

end Annals.Repository

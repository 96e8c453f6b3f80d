import Annals.Failure
import Annals.Process.Execute

/-!
# Feeding lines

A handler takes lines one after the other and stops at the first that it refuses. What it preserves at
every line it preserves throughout (`Fed.all_invariant`), and a refusal is traced back to its line
(`Fed.failure?_all_eq_some_iff`); where refusing does not depend on the state, it is the first line that
would be refused (`Fed.failure?_all`). A `Reading` is what comes of lines in the end.
-/

namespace Annals

/-- Whether a note tells of an operation that failed. -/
def Note.isError (n : Note) : Bool := n.level = .error

namespace Fed

variable {σ ε : Type} {feed : σ → Text → Fed σ ε}

theorem all_cons {s s' : σ} {line : Text} (h : feed s line = ⟨s', [], none⟩) (lines : List Text) :
    all feed s (line :: lines) = all feed s' lines := by
  simp [all, h]

theorem all_append {s : σ} {first : List Text} (h : (all feed s first).failure? = none)
    (rest : List Text) :
    all feed s (first ++ rest) =
      { all feed (all feed s first).state rest with
        notes := (all feed s first).notes ++ (all feed (all feed s first).state rest).notes } := by
  induction first generalizing s with
  | nil => rfl
  | cons line lines ih =>
    cases hf : (feed s line).failure? with
    | some f => simp [all, hf] at h
    | none =>
      simp only [all, hf] at h
      simp only [List.cons_append, all, hf, ih h, List.append_assoc]

/-- Feeding stops at a line that is refused after all lines before it were taken. -/
theorem failure?_all_eq_some_iff {s : σ} {lines : List Text} {f : ε} :
    (all feed s lines).failure? = some f ↔ ∃ before line after, lines = before ++ line :: after ∧
      (all feed s before).failure? = none ∧
        (feed (all feed s before).state line).failure? = some f := by
  constructor
  · intro h
    induction lines generalizing s with
    | nil => exact nomatch h
    | cons line lines ih =>
      cases hf : (feed s line).failure? with
      | some f' =>
        simp only [all, hf] at h
        exact ⟨[], line, lines, rfl, rfl, hf.trans h⟩
      | none =>
        simp only [all, hf] at h
        obtain ⟨before, l, after, rfl, hbefore, hl⟩ := ih h
        exact ⟨line :: before, l, after, rfl, by simp only [all, hf, hbefore],
          by simp only [all, hf, hl]⟩
  · rintro ⟨before, line, after, rfl, hbefore, hline⟩
    rw [all_append hbefore]
    simp only [all, hline]

/-- If refusing does not depend on the state, the first line that would be refused is. -/
theorem failure?_all {refused? : Text → Option ε}
    (h : ∀ s line, (feed s line).failure? = refused? line) (s : σ) (lines : List Text) :
    (all feed s lines).failure? = lines.findSome? refused? := by
  induction lines generalizing s with
  | nil => rfl
  | cons line lines ih =>
    have hline := h s line
    rw [List.findSome?_cons, ← hline]
    cases hf : (feed s line).failure? with
    | some f => simp only [all, hf]
    | none => simp only [all, hf, ih]

/-- If it does not depend on the state which lines are refused, all lines are taken if each would be. -/
theorem failure?_all_eq_none_iff {P : Text → Prop}
    (h : ∀ s line, (feed s line).failure? = none ↔ P line) (s : σ) (lines : List Text) :
    (all feed s lines).failure? = none ↔ ∀ line ∈ lines, P line := by
  induction lines generalizing s with
  | nil => simp [all]
  | cons line lines ih =>
    rw [List.forall_mem_cons, ← h s line]
    cases hf : (feed s line).failure? with
    | some f => simp [all, hf]
    | none => simp only [all, hf, ih, true_and]

theorem failure?_all_of_iff {P : Text → Prop} [DecidablePred P] {f : ε}
    (h : ∀ s line, (feed s line).failure? = if P line then some f else none) (s : σ)
    (lines : List Text) :
    (all feed s lines).failure? = if ∃ line ∈ lines, P line then some f else none := by
  rw [failure?_all h]
  induction lines with
  | nil => simp
  | cons line lines ih => by_cases hp : P line <;> simp [hp, ih]

/-- All lines are taken if none is one of those that are refused. -/
theorem failure?_all_eq_none {P : Text → Prop} [DecidablePred P] {f : ε}
    (h : ∀ s line, (feed s line).failure? = if P line then some f else none) (s : σ)
    {lines : List Text} (hlines : ∀ line ∈ lines, ¬P line) : (all feed s lines).failure? = none := by
  rw [failure?_all_of_iff h, if_neg]
  rintro ⟨line, hline, hp⟩
  exact hlines line hline hp

/-- What every line preserves is preserved. -/
theorem all_invariant {P : σ → Prop} (h : ∀ s line, P s → P (feed s line).state) {s : σ} (hs : P s)
    (lines : List Text) : P (all feed s lines).state := by
  induction lines generalizing s with
  | nil => exact hs
  | cons line lines ih =>
    cases hf : (feed s line).failure? with
    | some f => simpa only [all, hf] using h s line hs
    | none => simpa only [all, hf] using ih (h s line hs)

/-- What is true of the notes about every line is true of all notes. -/
theorem forall_mem_notes_all {P : Note → Prop} (h : ∀ s line, ∀ note ∈ (feed s line).notes, P note)
    (s : σ) (lines : List Text) : ∀ note ∈ (all feed s lines).notes, P note := by
  induction lines generalizing s with
  | nil => exact List.forall_mem_nil _
  | cons line lines ih =>
    cases hf : (feed s line).failure? with
    | some f => simpa only [all, hf] using h s line
    | none =>
      simp only [all, hf]
      exact List.forall_mem_append.mpr ⟨h s line, ih (feed s line).state⟩

end Fed

/-- What comes of lines: the result, the notes and the failure, if any. -/
structure Reading (α : Type) where
  result : α
  notes : List Note
  failure? : Option Failure
  deriving DecidableEq

namespace Reading

variable {α : Type}

/-- The reading with notes made before it. -/
def after (notes : List Note) (l : Reading α) : Reading α := { l with notes := notes ++ l.notes }

/-- The warnings among the notes. -/
def warnings (l : Reading α) : List Note := l.notes.filter (·.level = .warning)

/-- The reading with no notes but its warnings. -/
def grave (l : Reading α) : Reading α := { l with notes := l.warnings }

/-- Whether a reading is another one with one more warning. -/
def WarnsOnceMore (l l' : Reading α) : Prop :=
  l.result = l'.result ∧ l.failure? = l'.failure? ∧
    ∃ first last note, l'.warnings = first ++ last ∧ l.warnings = first ++ note :: last

theorem grave_after (notes : List Note) (l : Reading α) :
    (l.after notes).grave = l.grave.after (notes.filter (·.level = .warning)) := by
  simp [grave, warnings, after]

theorem after_after (first second : List Note) (l : Reading α) :
    (l.after second).after first = l.after (first ++ second) := by
  simp [after]

@[simp] theorem after_nil (l : Reading α) : l.after [] = l := rfl

theorem filter_flatMap_eq_nil {remarks : Text → List Note}
    (h : ∀ line, ∀ note ∈ remarks line, note.level ≠ .warning) (lines : List Text) :
    (lines.flatMap remarks).filter (·.level = .warning) = [] := by
  rw [List.filter_eq_nil_iff]
  intro note hnote
  obtain ⟨line, -, hmem⟩ := List.mem_flatMap.1 hnote
  simpa using h line note hmem

/-- A warning among notes that are none comes on top of those before and after. -/
theorem warnsOnceMore_after {note : Note} (hnote : note.level = .warning) {quiet : List Note}
    (hquiet : quiet.filter (·.level = .warning) = []) (first : List Note) (l : Reading α) :
    (l.after (first ++ note :: quiet)).WarnsOnceMore (l.after first) := by
  refine ⟨rfl, rfl, first.filter (·.level = .warning), l.warnings, note, ?_, ?_⟩
  · simp [warnings, after]
  · simp [warnings, after, hnote, hquiet]

end Reading

end Annals

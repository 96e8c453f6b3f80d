import Annals.Git.Log
import Annals.Proofs.Date.Stamp
import Annals.Proofs.History.Headers
import Annals.Proofs.History.Isolation

/-!
# Git logs

What the reader relies on of the format of Git logs: which lines are headers (`isHeader_logFormat`), how
their dates decide what they open (`openRecord_byDate`), and that only dropped records are warned about
(`graded_logFormat`). The lines that tell what happened to a file are read as they were printed
(`Change.ofLine?_line`).
-/

namespace Annals.Git

/-! ## The format -/

theorem isHeader_logFormat {line : Text} :
    logFormat.isHeader line = true ↔ ∃ rest, line = recordMarker :: rest := by
  cases line with
  | nil => simp [HistoryFormat.isHeader, logFormat]
  | cons c cs =>
    by_cases hc : c = recordMarker <;> simp [HistoryFormat.isHeader, logFormat, hc]

theorem isHeader_eq_false {line : Text} (h : line.head? ≠ some recordMarker) :
    logFormat.isHeader line = false := by
  rw [Bool.eq_false_iff]
  intro hline
  obtain ⟨rest, rfl⟩ := isHeader_logFormat.1 hline
  exact h rfl

/-- The date in the text of a header that has all its fields. -/
def dateField? (header : Text) : Option Text :=
  match Text.fieldsUpTo '\t' 2 header with
  | [_, date, _] => some date
  | _ => none

/-- What a header opens is decided by its date. -/
theorem openRecord_byDate (header : Text) :
    Opened.ByDate datePatterns (dateField? header) (openRecord header) := by
  unfold openRecord dateField?
  rcases Text.fieldsUpTo '\t' 2 header with _ | ⟨revision, _ | ⟨date, _ | ⟨author, _ | ⟨more, rest⟩⟩⟩⟩
  case cons.cons.cons.nil => exact .of_readDate rfl
  all_goals exact .missing rfl

theorem graded_logFormat : logFormat.Graded where
  remarks _ _ h := absurd h List.not_mem_nil
  dropped header _ h := (openRecord_byDate header).level_of_eq h
  duplicate _ := rfl

/-- What every entry of a log has: a date in UTC, no tags yet, no changeset, and a message whose last line
is not blank. -/
structure IsRead (e : Entry) : Prop where
  utc : e.date.offset? = some 0
  tags : e.tags = []
  changeset : e.changeset = none
  message : ∀ line ∈ e.message.getLast?, ∃ c ∈ line, isBlank c = false

theorem message_entry (c : Commit) : ∀ line ∈ c.entry.message.getLast?, ∃ d ∈ line, isBlank d = false := by
  intro line hline
  have hsolid := not_of_mem_getLast?_dropEndWhile hline
  simpa [Text.trim_eq_nil_iff] using hsolid

theorem date_add (c : Commit) (line : Text) : (c.add line).date = c.date := by
  unfold Commit.add Commit.addMessage Commit.addStatus
  repeat' split
  all_goals rfl

theorem maintains_logFormat : logFormat.Maintains IsRead where
  opens header c ho := by
    refine ⟨?_, rfl, rfl, message_entry c⟩
    change openRecord header = .record c at ho
    unfold openRecord at ho
    split at ho
    · split at ho
      · next hread =>
        obtain rfl := Opened.record.inj ho
        exact offset?_of_readDate hread
      · contradiction
      · contradiction
    · contradiction
  extend c line hc := by
    refine ⟨?_, rfl, rfl, message_entry (c.add line)⟩
    change (c.add line).date.offset? = some 0
    rw [date_add]
    exact hc.utc

/-! ## Printed changes -/

/-- What happened to a file, as Git prints it: a letter and the path, or a letter, a number and the two
paths of a rename or copy. -/
inductive Change where
  | single (letter : Char) (path : Text) (letter_mem : letter ∈ ['A', 'M', 'D', 'T', 'U', 'X'])
      (path_ne : path ≠ []) (path_oneLine : '\n' ∉ path)
  | pair (letter : Char) (digits old new : Text) (letter_mem : letter ∈ ['R', 'C'])
      (digits_all : digits.all isDigit = true) (old_ne : old ≠ []) (new_ne : new ≠ [])
      (old_solid : '\t' ∉ old ∧ '\n' ∉ old) (new_solid : '\t' ∉ new ∧ '\n' ∉ new)

namespace Change

/-- The line that tells of a change. -/
def line : Change → Text
  | single letter path .. => letter :: '\t' :: path
  | pair letter digits old new .. => letter :: (digits ++ '\t' :: (old ++ '\t' :: new))

/-- The path after a change. -/
def path : Change → Text
  | single _ path .. => path
  | pair _ _ _ new .. => new

/-- The path before a rename or copy. -/
def renamedFrom? : Change → Option Text
  | single .. => none
  | pair _ _ old .. => some old

end Change

theorem oneLine?_of_notMem {line : Text} (h : '\n' ∉ line) : oneLine? line = some line := by
  have hlast : line.getLast? ≠ some '\n' := fun hl => h (List.mem_of_getLast? hl)
  simp [oneLine?, hlast, h]

theorem lastTab?_cons_of_some {c : Char} {cs a b : Text} (h : lastTab? cs = some (a, b)) :
    lastTab? (c :: cs) = some (c :: a, b) := by
  rw [lastTab?.eq_def]
  simp only [h]

theorem lastTab?_cons_of_none {c d : Char} {ds : Text} (h : lastTab? (d :: ds) = none)
    (hd : d ≠ '\t') : lastTab? (c :: d :: ds) = none := by
  rw [lastTab?.eq_def]
  simp only [h]
  split
  · next heq => exact absurd (List.cons.inj heq).1 hd
  · rfl

theorem lastTab?_of_notMem {t : Text} (h : '\t' ∉ t) : lastTab? t = none := by
  induction t with
  | nil => rfl
  | cons c cs ih =>
    have hcs := List.not_mem_of_not_mem_cons h
    cases cs with
    | nil => rfl
    | cons d ds =>
      exact lastTab?_cons_of_none (ih hcs) (List.ne_of_not_mem_cons hcs).symm

/-- Two paths without tabs are told apart at the tab between them. -/
theorem lastTab?_append {old new : Text} (hold : old ≠ []) (hnew : new ≠ []) (hsolid : '\t' ∉ new) :
    lastTab? (old ++ '\t' :: new) = some (old, new) := by
  induction old with
  | nil => exact absurd rfl hold
  | cons c cs ih =>
    cases cs with
    | nil =>
      obtain ⟨d, ds, rfl⟩ := List.exists_cons_of_ne_nil hnew
      have htab : lastTab? ('\t' :: d :: ds) = none :=
        lastTab?_cons_of_none (lastTab?_of_notMem hsolid) (List.ne_of_not_mem_cons hsolid).symm
      rw [List.singleton_append, lastTab?.eq_def]
      simp only [htab]
    | cons c' cs => exact lastTab?_cons_of_some (ih (List.cons_ne_nil _ _))

namespace Change

theorem oneLine (c : Change) : '\n' ∉ c.line := by
  cases c with
  | single letter path hletter _ hpath =>
    have hne : letter ≠ '\n' := by
      rintro rfl
      exact absurd hletter (by decide)
    simp [line, hpath, hne.symm]
  | pair letter digits old new hletter hdigits _ _ hold hnew =>
    have hne : letter ≠ '\n' := by
      rintro rfl
      exact absurd hletter (by decide)
    have hdigit : '\n' ∉ digits := fun hmem =>
      absurd (List.all_eq_true.1 hdigits _ hmem) (by decide)
    simp [line, hdigit, hold.2, hnew.2, hne.symm]

theorem head?_line (c : Change) : c.line.head? ≠ some recordMarker := by
  cases c with
  | single letter path hletter =>
    intro heq
    obtain rfl : letter = recordMarker := Option.some.inj heq
    exact absurd hletter (by decide)
  | pair letter digits old new hletter =>
    intro heq
    obtain rfl : letter = recordMarker := Option.some.inj heq
    exact absurd hletter (by decide)

theorem ofLine?_line (c : Change) :
    FileStatus.ofLine? c.line = some (match c.renamedFrom? with
      | none => .changed c.path
      | some old => .renamed old c.path) := by
  rw [FileStatus.ofLine?, oneLine?_of_notMem c.oneLine, Option.bind_some]
  cases c with
  | single letter path hletter hpath _ =>
    have hmoved : ¬(letter = 'R' ∨ letter = 'C') := by
      rintro (rfl | rfl) <;> exact absurd hletter (by decide)
    obtain ⟨c, cs, rfl⟩ := List.exists_cons_of_ne_nil hpath
    simp only [line, if_neg hmoved, if_pos hletter]
    rfl
  | pair letter digits old new hletter hdigits hold hnew _ hsolid =>
    have hmoved : letter = 'R' ∨ letter = 'C' := by simpa using hletter
    have hdrop : (digits ++ '\t' :: (old ++ '\t' :: new)).dropWhile isDigit =
        '\t' :: (old ++ '\t' :: new) := by
      rw [List.dropWhile_append_of_pos (List.all_eq_true.1 hdigits)]
      exact List.dropWhile_cons_of_neg (by decide)
    simp only [line, if_pos hmoved, hdrop, lastTab?_append hold hnew hsolid.1]
    rfl

end Change

end Annals.Git

import Annals.Proofs.Cli.Showing

/-!
# Settings that cannot be read

Reading the settings ends with settings or with a failure that tells the user what is wrong in which
file, unless the place of the file cannot be told or looked up, or the file is no text and nothing is
wrong before that is noticed (`isAnswered_load`). An invocation then ends with that failure as its one
line of standard error; any other failure escapes (`load_answered_iff`).
-/

namespace Annals

theorem LineSource.fault?_ofBytes (content : Bytes) :
    (ofBytes content).fault? = none ↔ ∃ t, Utf8.decodeStrict content = .ok t := by
  rw [ofBytes]
  cases Utf8.decodeStrict content with
  | ok t => exact ⟨fun _ => ⟨t, rfl⟩, fun _ => rfl⟩
  | error fault =>
    refine ⟨fun hnone => ?_, fun ⟨_, ht⟩ => nomatch ht⟩
    dsimp only [before] at hnone
    split at hnone <;> exact nomatch hnone

namespace Config

/-- Where the settings are kept: where the caller says, or at the usual place. -/
def place (env : Environment) (homes : Homes) : Option Path → Except Failure Path
  | some path => .ok path
  | none => defaultPath env homes

/-- A file is a text, or has a line that is refused before it is noticed that it is none. -/
def IsTextual (content : Bytes) : Prop :=
  (∃ t, Utf8.decodeStrict content = .ok t) ∨
    ∃ fault, SectionReader.steps {} 1 (LineSource.ofBytes content).lines = .error fault

/-- It can be told what is at a path, and a file there can be read. -/
def IsReadable (fs : Files) (path : Path) : Prop :=
  ∃ item?, fs.item? path = .ok item? ∧ ∀ content, item? = some (.file content) → IsTextual content

/-- A result is there, or is refused for what is wrong in the file at a path. -/
def IsAnswered {α : Type} (path : Path) (result : Except Failure α) : Prop :=
  (∃ a, result = .ok a) ∨ ∃ fault, result = .error (.badConfig path fault)

section Reading

variable {fs : Files} {path : Path}

/-- The options of the file at a path, given its content. -/
def readContent (path : Path) (content : Bytes) : Except Failure Options :=
  match SectionReader.steps {} 1 (LineSource.ofBytes content).lines with
  | .error fault => .error (.badConfig path fault)
  | .ok r =>
    match (LineSource.ofBytes content).fault? with
    | some fault => .error (.undecodable fault)
    | none =>
      match r.finish with
      | .error fault => .error (.badConfig path fault)
      | .ok s => .ok s.flatten

theorem readOptions_file {content : Bytes} (hitem : fs.item? path = .ok (some (.file content))) :
    readOptions fs path = readContent path content := by
  rw [readOptions, hitem]
  rfl

theorem isAnswered_readContent {content : Bytes} :
    IsAnswered path (readContent path content) ↔ IsTextual content := by
  rw [readContent, IsTextual, ← LineSource.fault?_ofBytes]
  cases hsteps : SectionReader.steps {} 1 (LineSource.ofBytes content).lines with
  | error fault => exact ⟨fun _ => .inr ⟨fault, rfl⟩, fun _ => .inr ⟨fault, rfl⟩⟩
  | ok r =>
    cases hfault : (LineSource.ofBytes content).fault? with
    | some fault =>
      refine ⟨fun h => ?_, fun h => ?_⟩
      · rcases h with ⟨_, h⟩ | ⟨_, h⟩ <;> exact nomatch h
      · rcases h with h | ⟨_, h⟩ <;> exact nomatch h
    | none =>
      refine ⟨fun _ => .inl rfl, fun _ => ?_⟩
      dsimp only
      cases r.finish with
      | error fault => exact .inr ⟨fault, rfl⟩
      | ok s => exact .inl ⟨_, rfl⟩

theorem readOptions_other {item? : Option Item} (hitem : fs.item? path = .ok item?)
    (hno : ∀ content, item? ≠ some (.file content)) : readOptions fs path = .ok [] := by
  rw [readOptions, hitem]
  match item? with
  | none => rfl
  | some (.link target) => rfl
  | some (.dir inside) => rfl
  | some (.file content) => exact absurd rfl (hno content)

theorem readOptions_badPath {fault : PathFault} (hitem : fs.item? path = .error fault) :
    readOptions fs path = .error (.badPath fault) := by
  rw [readOptions, hitem]
  rfl

theorem isAnswered_readOptions : IsAnswered path (readOptions fs path) ↔ IsReadable fs path := by
  cases hitem : fs.item? path with
  | error fault =>
    refine ⟨fun h => ?_, fun ⟨_, h, _⟩ => nomatch hitem.symm.trans h⟩
    rw [readOptions_badPath hitem] at h
    rcases h with ⟨_, h⟩ | ⟨_, h⟩ <;> exact nomatch h
  | ok item? =>
    by_cases hfile : ∃ content, item? = some (.file content)
    · obtain ⟨content, rfl⟩ := hfile
      rw [readOptions_file hitem, isAnswered_readContent]
      refine ⟨fun h => ⟨_, hitem, fun other heq => ?_⟩, fun ⟨_, hfound, h⟩ => ?_⟩
      · obtain rfl : content = other := Item.file.inj (Option.some.inj heq)
        exact h
      · exact h content (Except.ok.inj (hfound.symm.trans hitem))
    · have hno (content : Bytes) : item? ≠ some (.file content) := fun h => hfile ⟨content, h⟩
      have hread := readOptions_other hitem hno
      exact ⟨fun _ => ⟨item?, hitem, fun content h => absurd h (hno content)⟩,
        fun _ => .inl ⟨_, hread⟩⟩

/-- What is wrong with the options is reported if it is in their file, and not reported otherwise. -/
theorem report?_of_readOptions_error {f : Failure} (h : readOptions fs path = .error f) :
    (∃ fault, f = .badConfig path fault) ∨ f.report? = none := by
  cases hitem : fs.item? path with
  | error fault =>
    rw [readOptions_badPath hitem] at h
    obtain rfl := Except.error.inj h
    cases fault <;> exact .inr rfl
  | ok item? =>
    by_cases hfile : ∃ content, item? = some (.file content)
    · obtain ⟨content, rfl⟩ := hfile
      rw [readOptions_file hitem, readContent] at h
      split at h
      · exact .inl ⟨_, (Except.error.inj h).symm⟩
      · split at h
        · obtain rfl := Except.error.inj h
          exact .inr rfl
        · split at h
          · exact .inl ⟨_, (Except.error.inj h).symm⟩
          · exact nomatch h
    · rw [readOptions_other hitem fun content h => hfile ⟨content, h⟩] at h
      exact nomatch h

end Reading

theorem load_of_place_error {env : Environment} {homes : Homes} {path? : Option Path} {f : Failure}
    (fs : Files) (h : place env homes path? = .error f) : load fs env homes path? = .error f := by
  cases path? with
  | some path => exact nomatch h
  | none =>
    have hplace : defaultPath env homes = .error f := h
    rw [load, hplace]
    rfl

theorem load_of_place {env : Environment} {homes : Homes} {path? : Option Path} {path : Path} (fs : Files)
    (h : place env homes path? = .ok path) :
    load fs env homes path? = (readOptions fs path).map (ofOptions env path) := by
  have hload : load fs env homes path? =
      readOptions fs path >>= fun options => pure (ofOptions env path options) := by
    cases path? with
    | some p =>
      obtain rfl := Except.ok.inj h
      rfl
    | none =>
      have hplace : defaultPath env homes = .ok path := h
      rw [load, hplace]
      rfl
  rw [hload]
  cases readOptions fs path <;> rfl

/-- The settings are read, or refused for what is wrong in their file, exactly if what is at their place
can be read. -/
theorem isAnswered_load {env : Environment} {homes : Homes} {path? : Option Path} {path : Path} (fs : Files)
    (hplace : place env homes path? = .ok path) :
    IsAnswered path (load fs env homes path?) ↔ IsReadable fs path := by
  rw [← isAnswered_readOptions, load_of_place fs hplace]
  cases readOptions fs path with
  | ok options => exact ⟨fun _ => .inl ⟨_, rfl⟩, fun _ => .inl ⟨_, rfl⟩⟩
  | error f =>
    refine ⟨fun h => ?_, fun h => ?_⟩
    all_goals
      rcases h with ⟨_, h⟩ | ⟨fault, h⟩
      · exact nomatch h
      · exact .inr ⟨fault, Except.error.inj h ▸ rfl⟩

theorem eq_noHome_of_place_error {env : Environment} {homes : Homes} {path? : Option Path} {f : Failure}
    (h : place env homes path? = .error f) : f = .noHome := by
  cases path? with
  | some path => exact nomatch h
  | none =>
    rw [place, defaultPath, expandHome] at h
    split at h
    · split at h
      · exact (Except.error.inj h).symm
      · split at h
        · exact (Except.error.inj h).symm
        · exact nomatch h
    · exact nomatch h

/-- Settings that are not read are reported if that is for what is wrong in their file, and not reported
otherwise. -/
theorem report?_of_load_error {fs : Files} {env : Environment} {homes : Homes} {path? : Option Path}
    {f : Failure} (h : load fs env homes path? = .error f) :
    (∃ path fault, place env homes path? = .ok path ∧ f = .badConfig path fault) ∨ f.report? = none := by
  cases hplace : place env homes path? with
  | error g =>
    obtain rfl := Except.error.inj ((load_of_place_error fs hplace).symm.trans h)
    rw [eq_noHome_of_place_error hplace]
    exact .inr rfl
  | ok path =>
    rw [load_of_place fs hplace] at h
    cases hread : readOptions fs path with
    | ok options => rw [hread] at h; exact nomatch h
    | error g =>
      rw [hread] at h
      obtain rfl := Except.error.inj h
      exact (report?_of_readOptions_error hread).imp_left fun ⟨fault, hg⟩ => ⟨path, fault, rfl, hg⟩

end Config

namespace Cli

/-- An invocation comes to reading the settings, from a file if one is named. -/
def OpensWith (w : World) (args : List Text) (path? : Option Path) : Prop :=
  ∃ o verb, Opening.read w.files args = .ok o ∧ o.verb = .ok verb ∧ o.configPath? = path?

theorem opening_eq {fs : Files} {args : List Text} {o : Opening} {verb : Verb}
    (hread : Opening.read fs args = .ok o) (hverb : o.verb = .ok verb) :
    (Opening.read fs args >>= fun o => o.verb >>= fun verb => pure (o, verb)) = .ok (o, verb) := by
  rw [hread]
  change (o.verb >>= fun verb => pure (o, verb)) = _
  rw [hverb]
  rfl

theorem invoke_of_load_error {w : World} {args : List Text} {path? : Option Path} {f : Failure}
    (hopens : OpensWith w args path?) (hload : Config.load w.files w.environment w.homes path? = .error f) :
    invoke w args = failureAnswer [] [] f := by
  obtain ⟨o, verb, hread, hverb, rfl⟩ := hopens
  simp only [invoke, opening_eq hread hverb, hload]

end Cli

namespace Config

/-- It is known where the settings are kept, and what is there can be read. -/
def CanRead (w : World) (path? : Option Path) : Prop :=
  ∃ path, place w.environment w.homes path? = .ok path ∧ IsReadable w.files path

/-- **Settings that cannot be read.** Reading the settings ends with settings or with a failure that says
which file is wrong, exactly if it is known where they are kept and what is there can be read. An
invocation whose settings are not read then ends with one line about that; otherwise the failure escapes
from it. -/
theorem load_answered_iff (w : World) (path? : Option Path) :
    ((∃ path, place w.environment w.homes path? = .ok path ∧
        IsAnswered path (load w.files w.environment w.homes path?)) ↔ CanRead w path?) ∧
      ∀ args f, Cli.OpensWith w args path? → load w.files w.environment w.homes path? = .error f →
        (CanRead w path? → ∃ path fault, f = .badConfig path fault ∧ Cli.invoke w args =
          { exitCode := ReportKind.config.exitCode
            stderr := "Error: " ++ Cli.shownLine
              ("Invalid config file " ++ path.toText ++ ": " ++ fault.message path.toText) }) ∧
        (¬CanRead w path? → (Cli.invoke w args).escaped? = some f) := by
  have hiff : (∃ path, place w.environment w.homes path? = .ok path ∧
      IsAnswered path (load w.files w.environment w.homes path?)) ↔ CanRead w path? :=
    exists_congr fun path => and_congr_right fun hplace => isAnswered_load w.files hplace
  refine ⟨hiff, fun args f hopens hload => ?_⟩
  rw [Cli.invoke_of_load_error hopens hload]
  refine ⟨fun hcan => ?_, fun hcannot => ?_⟩
  · obtain ⟨path, -, hanswered⟩ := hiff.2 hcan
    rcases hanswered with ⟨_, h⟩ | ⟨fault, h⟩
    · exact nomatch hload.symm.trans h
    · obtain rfl := Except.error.inj (hload.symm.trans h)
      exact ⟨path, fault, rfl, rfl⟩
  · rcases report?_of_load_error hload with ⟨path, fault, hplace, rfl⟩ | hno
    · exact absurd (hiff.1 ⟨path, hplace, .inr ⟨fault, hload⟩⟩) hcannot
    · rw [Cli.failureAnswer, hno]

/-- A world whose only file holds settings, and where no tool can be started. -/
def worldOf (content : Bytes) : World where
  files := { top := .file "cfg" content .nil }
  outcome _ _ := .unstartable .missing

def settingsArgs : List Text := ["--config", "cfg", "update", "."]

theorem opensWith_settingsArgs (content : Bytes) :
    Cli.OpensWith (worldOf content) settingsArgs (some (.ofText "cfg")) :=
  ⟨⟨false, some (.ofText "cfg"), "update", ["."]⟩, .update, by rfl, by rfl, rfl⟩

/-- A section that is there twice is reported with the name of the file. -/
theorem load_answered_iff_of_repeatedSection :
    let w := worldOf (Utf8.encode "[a]\n[a]\n")
    let path : Path := .ofText "cfg"
    let fault : SectionFault := .repeatedSection 2 "a"
    Cli.OpensWith w settingsArgs (some path) ∧
      load w.files w.environment w.homes (some path) = .error (.badConfig path fault) ∧
      CanRead w (some path) ∧ (Cli.invoke w settingsArgs).exitCode = 1 := by
  intro w path fault
  have hopens : Cli.OpensWith w settingsArgs (some path) := opensWith_settingsArgs _
  have hload : load w.files w.environment w.homes (some path) = .error (.badConfig path fault) := by rfl
  obtain ⟨hiff, hinvoke⟩ := load_answered_iff w (some path)
  have hcan : CanRead w (some path) := hiff.1 ⟨path, rfl, .inr ⟨fault, hload⟩⟩
  obtain ⟨_, _, -, hanswer⟩ := (hinvoke settingsArgs _ hopens hload).1 hcan
  exact ⟨hopens, hload, hcan, by rw [hanswer]; rfl⟩

/-- A file that is no text is not reported: the failure names no file and escapes. -/
theorem not_answered :
    let w := worldOf [0xFF]
    let path : Path := .ofText "cfg"
    let f : Failure := .undecodable ⟨0, [0xFF], .badStart⟩
    Cli.OpensWith w settingsArgs (some path) ∧
      load w.files w.environment w.homes (some path) = .error f ∧
      ¬IsAnswered path (load w.files w.environment w.homes (some path)) ∧
      (Cli.invoke w settingsArgs).escaped? = some f ∧ (Cli.invoke w settingsArgs).stderr = [] := by
  intro w path f
  have hopens : Cli.OpensWith w settingsArgs (some path) := opensWith_settingsArgs _
  have hload : load w.files w.environment w.homes (some path) = .error f := by rfl
  have hinvoke := Cli.invoke_of_load_error hopens hload
  refine ⟨hopens, hload, fun hanswered => ?_, by rw [hinvoke]; rfl, by rw [hinvoke]; rfl⟩
  rcases hanswered with ⟨_, h⟩ | ⟨fault, h⟩
  · exact nomatch hload.symm.trans h
  · have hf : Failure.undecodable ⟨0, [0xFF], .badStart⟩ = .badConfig path fault :=
      Except.error.inj (hload.symm.trans h)
    exact nomatch hf

end Config

end Annals

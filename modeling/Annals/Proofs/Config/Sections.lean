import Annals.Config.Sections
import Annals.Proofs.Text.Case

/-!
# Sections that were read

The reader keeps what it reads tidy: no section is there twice, no option twice in a section, and every
option has its name in lower case. One line keeps a reader tidy (`Tidy.step`), so does a whole file
(`Tidy.steps`), and what was read is tidy, too (`tidy_read`).
-/

namespace Annals

/-- Options of which none is there twice, with names in lower case. -/
structure TidyOptions {α : Type} (options : Assoc Text α) : Prop where
  nodup : (Assoc.keys options).Nodup
  lower : ∀ name ∈ Assoc.keys options, Text.lower name = name

/-- Sections of which none is there twice, with tidy options. -/
structure TidySections {α : Type} (sections : Assoc Text (Assoc Text α)) : Prop where
  nodup : (Assoc.keys sections).Nodup
  options : ∀ e ∈ sections, TidyOptions e.2

namespace TidyOptions

variable {α β : Type} {options : Assoc Text α}

theorem nil : TidyOptions ([] : Assoc Text α) := ⟨List.nodup_nil, fun _ h => absurd h List.not_mem_nil⟩

theorem put {name : Text} (hname : name.lower = name) (value : α) (h : TidyOptions options) :
    TidyOptions (options.put name value) where
  nodup := Assoc.nodup_keys_put name value h.nodup
  lower other hother := by
    rw [Assoc.keys_put] at hother
    split at hother
    · exact h.lower other hother
    · rcases List.mem_append.1 hother with hother | hother
      · exact h.lower other hother
      · rw [List.mem_singleton.1 hother, hname]

theorem modify (name : Text) (f : α → α) (h : TidyOptions options) :
    TidyOptions (options.modify name f) where
  nodup := Assoc.keys_modify name f options ▸ h.nodup
  lower := Assoc.keys_modify name f options ▸ h.lower

theorem map {f : Text × α → Text × β} (hf : ∀ e, (f e).1 = e.1) (h : TidyOptions options) :
    TidyOptions (options.map f) where
  nodup := Assoc.keys_map_of_eq hf options ▸ h.nodup
  lower := Assoc.keys_map_of_eq hf options ▸ h.lower

theorem filter (p : Text × α → Bool) (h : TidyOptions options) : TidyOptions (options.filter p) where
  nodup := h.nodup.sublist (List.filter_sublist.map _)
  lower name hname := h.lower name ((List.filter_sublist.map _).subset hname)

end TidyOptions

namespace SectionReader

/-- A reader that keeps tidy options. -/
structure Tidy (r : SectionReader) : Prop where
  defaults : TidyOptions r.defaults
  named : TidySections r.named

namespace Tidy

variable {r r' : SectionReader}

theorem changeHere {f : Assoc Text (List Text) → Assoc Text (List Text)}
    (hf : ∀ options, TidyOptions options → TidyOptions (f options)) (h : r.Tidy) :
    (r.changeHere f).Tidy := by
  rw [SectionReader.changeHere]
  cases r.place with
  | nowhere => exact h
  | defaults => exact ⟨hf _ h.defaults, h.named⟩
  | named name =>
    refine ⟨h.defaults, Assoc.keys_modify name f r.named ▸ h.named.nodup, fun e he => ?_⟩
    rcases Assoc.mem_modify he with hmem | ⟨options, hmem, rfl⟩
    · exact h.named.options e hmem
    · exact hf options (h.named.options _ hmem)

theorem extend (line : Text) (h : r.Tidy) : (r.extend line).Tidy := by
  rw [SectionReader.extend]
  cases r.option? with
  | none => exact h
  | some option => exact h.changeHere fun _ => .modify option _

theorem openSection {number : Nat} {name : Text} (h : r.Tidy)
    (hopen : r.openSection number name = .ok r') : r'.Tidy := by
  rw [SectionReader.openSection] at hopen
  split at hopen
  · obtain rfl := Except.ok.inj hopen
    exact ⟨h.defaults, h.named⟩
  · split at hopen
    · exact nomatch hopen
    · obtain rfl := Except.ok.inj hopen
      refine ⟨h.defaults, Assoc.nodup_keys_put name [] h.named.nodup, fun e he => ?_⟩
      rcases Assoc.mem_put he with rfl | hmem
      · exact .nil
      · exact h.named.options e hmem

theorem writeOption {number : Nat} {line name value : Text} (hname : name.lower = name)
    (h : r.Tidy) (hwrite : r.writeOption number line name value = .ok r') : r'.Tidy := by
  have hnoted :
      (if name.isEmpty then { r with strays := r.strays ++ [(number, line)] } else r).Tidy := by
    split
    · exact ⟨h.defaults, h.named⟩
    · exact h
  rw [SectionReader.writeOption] at hwrite
  generalize (if name.isEmpty then { r with strays := r.strays ++ [(number, line)] } else r) = noted
    at hnoted hwrite
  dsimp only at hwrite
  split at hwrite
  · exact nomatch hwrite
  · obtain rfl := Except.ok.inj hwrite
    obtain ⟨hdefaults, hnamed⟩ := hnoted.changeHere fun _ => .put hname [value]
    exact ⟨hdefaults, hnamed⟩

/-- The name of an option is read in lower case. -/
theorem lower_of_ofText {t name value : Text} (h : SectionLine.ofText t = .option name value) :
    name.lower = name := by
  rw [SectionLine.ofText] at h
  split at h
  · exact nomatch h
  · dsimp only at h
    split at h
    · exact nomatch h
    · injection h with hname
      rw [← hname, Text.lower_lower]

/-- A line keeps a reader tidy. -/
theorem step {number : Nat} {line : Text} (h : r.Tidy) (hstep : r.step number line = .ok r') :
    r'.Tidy := by
  rw [SectionReader.step] at hstep
  split at hstep
  · obtain rfl := Except.ok.inj hstep
    split
    · exact h.extend []
    · exact h
  · dsimp only at hstep
    split at hstep
    · exact Except.ok.inj hstep ▸ h
    · split at hstep
      · exact Except.ok.inj hstep ▸ h.extend _
      · have hindent (n : Nat) : { r with indent := n }.Tidy := ⟨h.defaults, h.named⟩
        split at hstep
        · exact (hindent _).openSection hstep
        · exact nomatch hstep
        · next hline _ => exact (hindent _).writeOption (lower_of_ofText hline) hstep
        · exact Except.ok.inj hstep ▸ ⟨h.defaults, h.named⟩

/-- Lines keep a reader tidy. -/
theorem steps {number : Nat} {lines : List Text} (h : r.Tidy)
    (hsteps : r.steps number lines = .ok r') : r'.Tidy := by
  induction lines generalizing r number with
  | nil => exact Except.ok.inj hsteps ▸ h
  | cons line lines ih =>
    rw [SectionReader.steps] at hsteps
    cases hstep : r.step number line with
    | error fault => rw [hstep] at hsteps; exact nomatch hsteps
    | ok next => rw [hstep] at hsteps; exact ih (h.step hstep) hsteps

theorem start : ({} : SectionReader).Tidy :=
  ⟨.nil, List.nodup_nil, fun _ h => absurd h List.not_mem_nil⟩

end Tidy

end SectionReader

/-- Sections whose parts are tidy. -/
structure Sections.Tidy (s : Sections) : Prop where
  defaults : TidyOptions s.defaults
  named : TidySections s.named

theorem SectionReader.Tidy.finish {r : SectionReader} {s : Sections} (h : r.Tidy)
    (hfinish : r.finish = .ok s) : s.Tidy := by
  rw [SectionReader.finish] at hfinish
  split at hfinish
  · obtain rfl := Except.ok.inj hfinish
    refine ⟨h.defaults.map fun _ => rfl, ?_, fun e he => ?_⟩
    · refine (congrArg List.Nodup (Assoc.keys_map_of_eq ?_ r.named)).mpr h.named.nodup
      exact fun _ => rfl
    · obtain ⟨e, hmem, rfl⟩ := List.mem_map.1 he
      exact (h.named.options e hmem).map fun _ => rfl
  · contradiction

theorem Sections.exists_of_read {lines : List Text} {s : Sections} (h : Sections.read lines = .ok s) :
    ∃ r, SectionReader.steps {} 1 lines = .ok r ∧ r.finish = .ok s := by
  rw [Sections.read] at h
  cases hsteps : SectionReader.steps {} 1 lines with
  | error fault =>
    rw [hsteps] at h
    contradiction
  | ok r =>
    rw [hsteps] at h
    exact ⟨r, rfl, h⟩

/-- What is read from a file is tidy. -/
theorem Sections.tidy_read {lines : List Text} {s : Sections} (h : Sections.read lines = .ok s) :
    s.Tidy := by
  obtain ⟨r, hsteps, hfinish⟩ := Sections.exists_of_read h
  exact (SectionReader.Tidy.start.steps hsteps).finish hfinish

end Annals

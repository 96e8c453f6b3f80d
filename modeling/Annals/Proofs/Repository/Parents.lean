import Annals.Proofs.Repository.Tasks

/-!
# Parents

BitKeeper is asked for the parent that a repository is updated from. That there is none it tells by a
message, which may stand on either of its outputs and says so whatever the status is
(`Exit.TellsNoParent`); otherwise the status tells a location from a failure (`Exit.parentMeant`). Every
exit is answered as it is meant, but for one kind: the message on the output with status 0 is not looked
for, and is taken for a location (`parent_meant_iff`, `not_parentMeant`).
-/

namespace Annals

namespace Exit

/-- Whether an exit tells that there is no parent. What is complained of counts only with a status that
tells of an error. -/
def TellsNoParent (e : Exit) : Prop :=
  (Utf8.decode e.stdout).trim = noParentMessage ∨
    e.code ≠ 0 ∧ (Utf8.decode e.stderr).trim = noParentMessage

instance (e : Exit) : Decidable e.TellsNoParent := inferInstanceAs (Decidable (_ ∨ _))

/-- What an exit of a command tells of the parent. -/
def parentMeant (argv : List Text) (e : Exit) : Except Failure (Option Text) :=
  if e.TellsNoParent then .ok none
  else if e.code = 0 then .ok (Utf8.decode e.stdout).trim.nonEmpty?
  else .error (.refused "determine parent" argv e.code (Utf8.decode e.stderr))

variable {argv : List Text} {e : Exit}

theorem parentMeant_of_success (hcode : e.code = 0) (hout : (Utf8.decode e.stdout).trim ≠ noParentMessage) :
    e.parentMeant argv = .ok (Utf8.decode e.stdout).trim.nonEmpty? := by
  have hnot : ¬e.TellsNoParent := by
    rintro (hsame | ⟨hne, -⟩)
    · exact hout hsame
    · exact hne hcode
  rw [parentMeant, if_neg hnot, if_pos hcode]

/-- The message is never meant as a location. -/
theorem parentMeant_ne_message : e.parentMeant argv ≠ .ok (some noParentMessage) := by
  intro h
  unfold parentMeant at h
  split at h
  · exact nomatch h
  · next hnot =>
    split at h
    · have hout := Text.eq_of_nonEmpty?_eq_some (Except.ok.inj h)
      exact hnot (.inl hout.symm)
    · exact nomatch h

theorem eq_refused_of_parentMeant {f : Failure} (h : e.parentMeant argv = .error f) :
    f = .refused "determine parent" argv e.code (Utf8.decode e.stderr) := by
  unfold parentMeant at h
  split at h
  · exact nomatch h
  · split at h
    · exact nomatch h
    · exact (Except.error.inj h).symm

end Exit

namespace Repository

variable {r : Repository} {w : World} {s : Session} {dir? : Option Path} {e : Exit}

theorem saysNoParent_iff {result : Result} : saysNoParent .bitkeeper result ↔
    result.outputText.trim = noParentMessage ∨ result.stderr.trim = noParentMessage := by
  rw [saysNoParent, Bool.or_eq_true, decide_eq_true_iff, decide_eq_true_iff]

theorem answers_parentTask (hbackend : r.backend = .bitkeeper) (hcode : e.code ≠ 0) :
    (r.parentTask w s dir?).answers e ↔ e.TellsNoParent := by
  rw [parentTask, decide_eq_true_iff, or_iff_right hcode, hbackend, saysNoParent_iff, Exit.TellsNoParent,
    and_iff_right hcode]
  rfl

/-- The status is looked at first, and with status 0 nothing but the location. -/
theorem answer_parent_of_endsWith (hbackend : r.backend = .bitkeeper)
    (hend : (w.outcome s.runs (r.parentTask w s dir?).command.argv).EndsWith
      (r.parentTask w s dir?).limit? e) :
    ((r.parent w dir?).runOn s).1 =
      if e.code = 0 then .ok (Utf8.decode e.stdout).trim.nonEmpty?
      else e.parentMeant (r.parentTask w s dir?).command.argv := by
  have hsettle := Task.settle_of_endsWith (Task.accepts_of_prints hend.prints rfl) hend
  rw [answer_parent, hsettle]
  by_cases hcode : e.code = 0
  · rw [if_pos ((r.parentTask w s dir?).answers_of_success e hcode), if_pos hcode]
    exact congrArg Except.ok (if_pos hcode)
  · have hanswers : (r.parentTask w s dir?).answers e ↔ e.TellsNoParent :=
      answers_parentTask hbackend hcode
    rw [if_neg hcode, Exit.parentMeant, if_neg hcode]
    by_cases htells : e.TellsNoParent
    · rw [if_pos htells, if_pos (hanswers.mpr htells)]
      exact congrArg Except.ok (if_neg hcode)
    · rw [if_neg htells, if_neg (mt hanswers.mp htells)]
      rfl

/-- Every exit is answered as it is meant, unless the message is printed with status 0, and only then is
the message answered as a location. A failure has all that the tool complained of. -/
theorem parent_meant_iff (r : Repository) (w : World) (s : Session) (dir? : Option Path) (e : Exit)
    (hbackend : r.backend = .bitkeeper)
    (hend : (w.outcome s.runs (r.parentTask w s dir?).command.argv).EndsWith
      (r.parentTask w s dir?).limit? e) :
    let argv := (r.parentTask w s dir?).command.argv
    let answer := ((r.parent w dir?).runOn s).1
    let misread := e.code = 0 ∧ (Utf8.decode e.stdout).trim = noParentMessage
    argv = [r.executable w s, "parent", "-1il"] ∧
    (answer = e.parentMeant argv ↔ ¬misread) ∧
    (answer = .ok (some noParentMessage) ↔ misread) ∧
    ∀ f, answer = .error f → f.kind = .reported .retrieval ∧ f.stderr = Utf8.decode e.stderr := by
  intro argv answer misread
  have hanswer : answer = _ := answer_parent_of_endsWith hbackend hend
  have hargv : argv = [r.executable w s, "parent", "-1il"] := by
    obtain ⟨backend, root, config⟩ := r
    obtain rfl : backend = .bitkeeper := hbackend
    rfl
  by_cases h : misread
  · have hmessage : answer = .ok (some noParentMessage) := by
      rw [hanswer, if_pos h.1, h.2]
      rfl
    refine ⟨hargv, ?_, iff_of_true hmessage h, fun f hf => ?_⟩
    · rw [hmessage]
      exact iff_of_false Exit.parentMeant_ne_message.symm (not_not_intro h)
    · exact nomatch hmessage.symm.trans hf
  · have hmeant : answer = e.parentMeant argv := by
      rw [hanswer]
      split
      · next hcode => exact (Exit.parentMeant_of_success hcode fun hout => h ⟨hcode, hout⟩).symm
      · rfl
    refine ⟨hargv, iff_of_true hmeant h, ?_, fun f hf => ?_⟩
    · rw [hmeant]
      exact iff_of_false Exit.parentMeant_ne_message h
    · rw [Exit.eq_refused_of_parentMeant (hmeant.symm.trans hf)]
      exact ⟨rfl, rfl⟩

/-- The message on either output tells of no parent, and one that only looks like it does not. -/
theorem parent_meant_iff_of_status :
    let r : Repository := { backend := .bitkeeper, root := .root }
    let answer (e : Exit) := ((r.parent (.exiting e) none).runOn {}).1
    answer { code := 1, stdout := Utf8.encode "\n This repository has no pull parent.\n" } = .ok none ∧
      answer { code := 1, stderr := Utf8.encode "This repository has no pull parent.\n" } = .ok none ∧
      answer { code := 1, stderr := Utf8.encode "This repository has no pull parents.\n" } =
        .error (.refused "determine parent" ["bk", "parent", "-1il"] 1
          "This repository has no pull parents.\n") ∧
      answer { stdout := Utf8.encode "bk://bkbits.net/repo\n" } = .ok (some "bk://bkbits.net/repo") ∧
      answer { stdout := Utf8.encode " \n" } = .ok none := by
  intro r answer
  have hmeant (e : Exit) := (parent_meant_iff r (.exiting e) {} none e rfl (.inl rfl)).2.1
  refine ⟨(hmeant _).mpr ?_, (hmeant _).mpr ?_, (hmeant _).mpr ?_, (hmeant _).mpr ?_, (hmeant _).mpr ?_⟩ <;>
    decide

/-- The message that there is no parent is answered as one. -/
theorem not_parentMeant :
    ¬∀ (r : Repository) (w : World) (s : Session) (dir? : Option Path) (e : Exit),
      r.backend = .bitkeeper →
      (w.outcome s.runs (r.parentTask w s dir?).command.argv).EndsWith
        (r.parentTask w s dir?).limit? e →
      ((r.parent w dir?).runOn s).1 = e.parentMeant (r.parentTask w s dir?).command.argv := by
  intro h
  let r : Repository := { backend := .bitkeeper, root := .root }
  let e : Exit := { stdout := Utf8.encode "This repository has no pull parent.\n" }
  have hmeant := h r (.exiting e) {} none e rfl (.inl rfl)
  have hfound : ((r.parent (.exiting e) none).runOn {}).1 = .ok (some noParentMessage) := by decide
  exact Exit.parentMeant_ne_message (hmeant.symm.trans hfound)

end Repository

end Annals

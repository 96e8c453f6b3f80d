import Annals.Git.Blame
import Annals.Proofs.Process.Feeding

/-!
# Git blame

An annotation that deviates from the format is refused as malformed, with one exception: a line number
with more digits than a number may have is refused as that (`isMalformed_or_hasLongNumber`,
`failure?_eq_tooManyDigits_iff`).
-/

namespace Annals

/-- Whether a failure is that the output of a tool is malformed. -/
def Failure.IsMalformed (f : Failure) : Prop := ∃ fault, f = .malformed fault

namespace Git.BlameReader

/-- Why no annotation is read from lines, if none is. -/
def failure? (filename : Text) (lines : List Text) : Option Failure :=
  let fed := Fed.all feed { filename } lines
  match fed.failure?, fed.state.annotation with
  | some f, _ => some f
  | none, .error f => some f
  | none, .ok _ => none

/-- Whether a block has a line number of too many digits, after blocks that were taken. -/
def HasLongNumber (filename : Text) (lines : List Text) (n : Nat) : Prop :=
  ∃ before line after hash number, lines = before ++ line :: after ∧
    (Fed.all feed { filename } before).failure? = none ∧
    (Fed.all feed { filename } before).state.revision? = none ∧
    blockHeader? line = some (hash, number) ∧ number.length = n ∧ maxDigits < n

theorem failure?_openBlock {r : BlameReader} {line : Text} {f : Failure}
    (h : (r.openBlock line).failure? = some f) :
    f.IsMalformed ∨ ∃ hash number, blockHeader? line = some (hash, number) ∧
      maxDigits < number.length ∧ f = .tooManyDigits number.length := by
  unfold openBlock at h
  split at h
  · exact Or.inl ⟨_, (Option.some.inj h).symm⟩
  · next hash number hheader =>
    split at h
    · next hlong => exact Or.inr ⟨hash, number, hheader, hlong, (Option.some.inj h).symm⟩
    · split at h
      · exact nomatch h
      · exact Or.inl ⟨_, (Option.some.inj h).symm⟩

theorem failure?_feed {r : BlameReader} {line : Text} {f : Failure}
    (h : (r.feed line).failure? = some f) :
    r.revision? = none ∧ (r.openBlock line).failure? = some f := by
  unfold feed at h
  split at h
  · next hrevision => exact ⟨hrevision, h⟩
  · exact nomatch h

theorem feed_of_long {r : BlameReader} {line hash number : Text} (hr : r.revision? = none)
    (hheader : blockHeader? line = some (hash, number)) (hlong : maxDigits < number.length) :
    (r.feed line).failure? = some (.tooManyDigits number.length) := by
  unfold feed openBlock
  simp only [hr, hheader, if_pos hlong]

theorem isMalformed_of_incomplete {r : BlameReader} {f : Failure} (h : r.annotation = .error f) :
    f.IsMalformed := by
  unfold annotation at h
  split at h
  · exact nomatch h
  · exact ⟨_, (Except.error.inj h).symm⟩

/-- Lines are refused as malformed or for a line number of too many digits. -/
theorem isMalformed_or_hasLongNumber {filename : Text} {lines : List Text} {f : Failure}
    (h : failure? filename lines = some f) :
    f.IsMalformed ∨ ∃ n, f = .tooManyDigits n ∧ HasLongNumber filename lines n := by
  unfold failure? at h
  dsimp only at h
  split at h
  · next hall =>
    rw [h] at hall
    obtain ⟨before, line, after, rfl, hbefore, hline⟩ := Fed.failure?_all_eq_some_iff.1 hall
    obtain ⟨hrevision, hopen⟩ := failure?_feed hline
    refine (failure?_openBlock hopen).imp_right ?_
    rintro ⟨hash, number, hheader, hlong, rfl⟩
    exact ⟨_, rfl, before, line, after, hash, number, rfl, hbefore, hrevision, hheader, rfl, hlong⟩
  · next ha =>
    obtain rfl := Option.some.inj h
    exact Or.inl (isMalformed_of_incomplete ha)
  · exact nomatch h

theorem failure?_eq_tooManyDigits_iff {filename : Text} {lines : List Text} {n : Nat} :
    failure? filename lines = some (.tooManyDigits n) ↔ HasLongNumber filename lines n := by
  constructor
  · intro h
    rcases isMalformed_or_hasLongNumber h with ⟨fault, hfault⟩ | ⟨m, hm, hlong⟩
    · exact nomatch hfault
    · obtain rfl := Failure.tooManyDigits.inj hm
      exact hlong
  · rintro ⟨before, line, after, hash, number, rfl, hbefore, hrevision, hheader, rfl, hlong⟩
    have hall : (Fed.all feed { filename } (before ++ line :: after)).failure? =
        some (.tooManyDigits number.length) :=
      Fed.failure?_all_eq_some_iff.2
        ⟨before, line, after, rfl, hbefore, feed_of_long hrevision hheader hlong⟩
    simp only [failure?, hall]

end Git.BlameReader

end Annals

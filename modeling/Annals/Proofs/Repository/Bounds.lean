import Annals.Proofs.Git.Revision
import Annals.Proofs.Repository.TagDisplay

/-!
# Histories with a bound

Git is told to print the revisions after a bound, and of those that are printed the ones are omitted
whose hash begins with the bound. This is meant for the revision that the bound names, in full or
abbreviated. A name of another kind may begin any number of hashes, and so may an abbreviation that was
not made for the history at hand: at most one revision is omitted if the bound begins at most one hash
(`history_omits_iff`), as a full hash does and a name that is not hexadecimal. A tag with the name `2`
omits every revision whose hash begins with that digit (`not_omitsAtMostOne`).
-/

namespace Annals

namespace Git

/-- Whether a character is a hexadecimal digit. -/
def IsHexDigit (c : Char) : Prop := ('0' ≤ c ∧ c ≤ '9') ∨ ('a' ≤ c ∧ c ≤ 'f') ∨ ('A' ≤ c ∧ c ≤ 'F')

instance (c : Char) : Decidable (IsHexDigit c) := inferInstanceAs (Decidable (_ ∨ _))

/-- Whether a text is the full hash of a commit. -/
def IsFullHash (t : Text) : Prop := t.length = 40 ∧ ∀ c ∈ t, IsHexDigit c

instance (t : Text) : Decidable (IsFullHash t) := inferInstanceAs (Decidable (_ ∧ _))

/-- Whether a bound is too long for the beginning of two hashes or cannot begin any. -/
def IsUnambiguous (since? : Option Text) : Prop :=
  ∀ since ∈ since?, 40 ≤ since.length ∨ ∃ c ∈ since, ¬IsHexDigit c

/-- An unambiguous bound begins no hash but itself. -/
theorem eq_of_abbreviates {since? : Option Text} {hash : Text} (hsince : IsUnambiguous since?)
    (hhash : IsFullHash hash) (h : Abbreviates since? hash) : since? = some hash := by
  obtain ⟨since, hmem, -, hbegins⟩ := h
  rcases hsince since hmem with hlong | ⟨c, hc, hdigit⟩
  · have hlength : since.length = hash.length :=
      Nat.le_antisymm hbegins.length_le (hhash.1.symm ▸ hlong)
    rw [Option.mem_def.1 hmem, hbegins.eq_of_length hlength]
  · exact absurd (hhash.2 c (hbegins.subset hc)) hdigit

end Git

theorem History.untagged_map_entry (revisions : List Git.Revision) :
    History.untagged (revisions.map Git.Revision.entry) = revisions.map Git.Revision.entry := by
  rw [untagged, List.map_map]
  exact List.map_congr_left fun v _ => rfl

theorem History.length_untagged (h : History) : h.untagged.length = h.length := List.length_map _

namespace Repository

open Git (Abbreviates Revision)

variable {i : Setting} {file : Path} {since? : Option Text} {revisions : List Revision}
  {history : History}

/-- Whether at most one revision is left out of a history and the others come in their order, with all
that is known of them but for their tags. -/
def OmitsAtMostOne (revisions : List Revision) (history : History) : Prop :=
  history.untagged.Sublist (revisions.map Revision.entry) ∧ revisions.length ≤ history.length + 1

theorem omitsAtMostOne_iff (h : history.untagged =
    (revisions.filter fun v => ¬Abbreviates since? v.hash).map Revision.entry) :
    OmitsAtMostOne revisions history ↔
      (revisions.filter fun v => Abbreviates since? v.hash).length ≤ 1 := by
  have hsublist : history.untagged.Sublist (revisions.map Revision.entry) := by
    rw [h]
    exact List.filter_sublist.map Revision.entry
  have hlength : history.length = (revisions.filter fun v => ¬Abbreviates since? v.hash).length := by
    rw [← History.length_untagged, h, List.length_map]
  have hsplit : revisions.length = (revisions.filter fun v => Abbreviates since? v.hash).length +
      (revisions.filter fun v => ¬Abbreviates since? v.hash).length := by
    simp only [decide_not]
    exact List.length_eq_length_filter_add _
  constructor
  · rintro ⟨-, hle⟩
    omega
  · intro hle
    exact ⟨hsublist, by omega⟩

/-- At most one full hash is begun by an unambiguous bound. -/
theorem length_abbreviated_le (hsince : Git.IsUnambiguous since?)
    (hdistinct : (revisions.map (·.hash)).Nodup) (hhash : ∀ v ∈ revisions, Git.IsFullHash v.hash) :
    (revisions.filter fun v => Abbreviates since? v.hash).length ≤ 1 := by
  generalize hkept : (revisions.filter fun v => Abbreviates since? v.hash) = kept
  have hsub : kept.Sublist revisions := hkept ▸ List.filter_sublist
  have hsame : kept.map (fun v => some v.hash) = List.replicate kept.length since? := by
    rw [List.map_eq_replicate_iff]
    intro v hv
    rw [← hkept] at hv
    obtain ⟨hv, habbreviates⟩ := List.mem_filter.1 hv
    exact (Git.eq_of_abbreviates hsince (hhash v hv) (of_decide_eq_true habbreviates)).symm
  have hnodup : (kept.map fun v => some v.hash).Nodup := by
    rw [← Function.comp_def, ← List.map_map]
    exact (hdistinct.sublist (hsub.map _)).map fun _ _ => Option.some.inj
  rwa [hsame, List.nodup_replicate] at hnodup

/-- From prints of revisions whose hashes are distinct, those are read whose hashes the bound does not
begin. -/
theorem Setting.settle_of_prints (i : Setting) (file : Path) (since? : Option Text)
    {texts : List Text} (stderr : Bytes)
    (hbackend : i.repository.backend = .git) (hprint : List.Forall₂ Revision.Prints revisions texts)
    (hdistinct : (revisions.map (·.hash)).Nodup)
    (hend : (i.logOutcome file since?).EndsWith (i.logTask file since?).limit?
      ⟨0, Utf8.encode texts.flatten, stderr⟩) :
    ∃ e, (i.logTask file since?).settle (i.logOutcome file since?) = .ok e ∧
      (i.repository.backend.logFormat.readLog since? (textLines e.stdout)).result.untagged =
        (revisions.filter fun v => ¬Abbreviates since? v.hash).map Revision.entry := by
  obtain ⟨lines, hflat, hlines, hread, hfailure⟩ :=
    Revision.readLog_prints_filter since? hprint hdistinct
  have hstdout : textLines (Utf8.encode texts.flatten) = lines := by
    rw [hflat, textLines_encode_ofLines hlines]
  obtain ⟨⟨backend, root, config⟩, w, session⟩ := i
  obtain rfl : backend = .git := hbackend
  let e : Exit := ⟨0, Utf8.encode texts.flatten, stderr⟩
  refine ⟨e, ?_, ?_⟩
  · have hrefusal : (Git.logFormat.readLog since? (textLines e.stdout)).failure? = none := by
      rw [hstdout]
      exact hfailure
    rw [Task.settle_of_endsWith (Task.accepts_of_prints hend.prints hrefusal) hend,
      if_pos (Task.answers_of_success _ e rfl)]
  · rw [hstdout]
    exact (congrArg History.untagged hread).trans (History.untagged_map_entry _)

/-! ## Two revisions with one first digit -/

/-- The beginning of a year. -/
def newYear : Stamp := ⟨⟨2020, 1, 1, 0, 0, 0, 0⟩, ⟨false, 0, 0, by decide, by decide⟩, by decide, rfl⟩

/-- A revision without a message, in which the file is not told to be changed. -/
def bareRevision (hash : Text) (h : Git.IsFullHash hash) : Revision where
  hash := hash
  stamp := newYear
  author := "Ann <ann@x>"
  message := []
  change? := none
  inRange := by decide +kernel
  hash_solid :=
    ⟨fun hmem => absurd (h.2 _ hmem) (by decide), fun hmem => absurd (h.2 _ hmem) (by decide)⟩
  author_oneLine := by decide
  message_plain := by decide

/-- How it is printed. -/
def bareText (hash : Text) : Text :=
  Git.recordMarker :: (hash ++ "\t2020-01-01T00:00:00Z\tAnn <ann@x>\n\x1f\n".toList)

theorem prints_bareRevision {hash : Text} (h : Git.IsFullHash hash) :
    (bareRevision hash h).Prints (bareText hash) := by
  have hdate : "2020-01-01T00:00:00Z".toList ∈ Git.stampTexts newYear := by decide +kernel
  refine ⟨_, hdate, [], [], by simp, ?_⟩
  simp [bareText, Revision.header, Revision.changeLines, bareRevision, Text.ofLines, Git.messageEnd]

/-- A hash that begins with the same digit as all others of its kind. -/
def twin (digit : Char) : Text := '2' :: List.replicate 39 digit

theorem isFullHash_twin {digit : Char} (h : Git.IsHexDigit digit) : Git.IsFullHash (twin digit) := by
  refine ⟨by rw [twin, List.length_cons, List.length_replicate], fun c hc => ?_⟩
  rcases List.mem_cons.1 hc with rfl | hc
  · decide
  · exact List.eq_of_mem_replicate hc ▸ h

/-- Two revisions whose hashes begin with the same digit. -/
def twins : List Revision :=
  [bareRevision (twin 'a') (isFullHash_twin (by decide)),
    bareRevision (twin 'b') (isFullHash_twin (by decide))]

theorem nodup_twins : (twins.map (·.hash)).Nodup := by decide +kernel

theorem isFullHash_twins : ∀ v ∈ twins, Git.IsFullHash v.hash := by
  intro v hv
  simp only [twins, List.mem_cons, List.not_mem_nil, or_false] at hv
  rcases hv with rfl | rfl
  · exact isFullHash_twin (by decide)
  · exact isFullHash_twin (by decide)

theorem prints_twins :
    List.Forall₂ Revision.Prints twins [bareText (twin 'a'), bareText (twin 'b')] :=
  .cons (prints_bareRevision _) (.cons (prints_bareRevision _) .nil)

/-- A repository with their log, in which tags are not shown. -/
def twinSetting : Setting where
  repository := { backend := .git, root := .root }
  world :=
    { outcome := fun _ _ =>
        .exits { stdout := Utf8.encode [bareText (twin 'a'), bareText (twin 'b')].flatten } }
  session := {}

theorem not_unlisted_twinSetting (file : Path) (since? : Option Text) (fault : CommandFault) :
    ¬twinSetting.Unlisted file since? fault := fun h => nomatch h.1

/-! ## What is omitted -/

/-- A history is what was printed without the revisions whose hashes the bound begins. At most one is
omitted exactly if the bound begins at most one of the hashes, as an unambiguous one does. There is no
history only if it is to have tags and they cannot be listed. -/
theorem history_omits_iff (i : Setting) (file : Path) (since? : Option Text)
    (revisions : List Revision) (texts : List Text) (stderr : Bytes)
    (hbackend : i.repository.backend = .git)
    (hprint : List.Forall₂ Revision.Prints revisions texts)
    (hdistinct : (revisions.map (·.hash)).Nodup) (hhash : ∀ v ∈ revisions, Git.IsFullHash v.hash)
    (htags : i.TagsInRange file since?)
    (hend : (i.logOutcome file since?).EndsWith (i.logTask file since?).limit?
      ⟨0, Utf8.encode texts.flatten, stderr⟩) :
    (∃ fault, i.Unlisted file since? fault ∧ i.history file since? = .error (.badCommand fault)) ∨
    ∃ history, i.history file since? = .ok history ∧
      history.untagged = (revisions.filter fun v => ¬Abbreviates since? v.hash).map Revision.entry ∧
      (OmitsAtMostOne revisions history ↔
        (revisions.filter fun v => Abbreviates since? v.hash).length ≤ 1) ∧
      (Git.IsUnambiguous since? → OmitsAtMostOne revisions history) := by
  obtain ⟨e, hsettle, hread⟩ := i.settle_of_prints file since? stderr hbackend hprint hdistinct hend
  by_cases hlisted : ∃ fault, i.Unlisted file since? fault
  · obtain ⟨fault, hunlisted⟩ := hlisted
    exact .inl ⟨fault, hunlisted, Setting.history_of_unlisted hunlisted hsettle⟩
  · obtain ⟨history, hok, huntagged⟩ := Setting.history_of_ok htags (not_exists.mp hlisted) hsettle
    have hkept := huntagged.trans hread
    have homits := omitsAtMostOne_iff hkept
    exact .inr ⟨history, hok, hkept, homits,
      fun hsince => homits.2 (length_abbreviated_le hsince hdistinct hhash)⟩

/-- The bound is the newer one of the two revisions, which alone is omitted. -/
theorem history_omits_iff_of_twins :
    ∃ history, twinSetting.history (.ofText "/f") (some (twin 'a')) = .ok history ∧
      history.untagged.revisions = [twin 'b'] ∧ OmitsAtMostOne twins history := by
  rcases history_omits_iff twinSetting (.ofText "/f") (some (twin 'a')) _ _ [] rfl prints_twins
    nodup_twins isFullHash_twins nofun (.inl rfl) with ⟨fault, hunlisted, -⟩ | ⟨history, hok, hkept, -, homits⟩
  · exact absurd hunlisted (not_unlisted_twinSetting _ _ fault)
  · refine ⟨history, hok, by rw [hkept]; decide +kernel, homits fun since hmem => .inl ?_⟩
    obtain rfl := Option.some.inj hmem
    exact (isFullHash_twin (by decide)).1.ge

/-- A tag that is called by a digit omits every revision whose hash begins with that digit. -/
theorem not_omitsAtMostOne :
    ¬∀ (i : Setting) (file : Path) (since? : Option Text) (revisions : List Revision)
      (texts : List Text) (stderr : Bytes), i.repository.backend = .git →
      List.Forall₂ Revision.Prints revisions texts → (revisions.map (·.hash)).Nodup →
      (∀ v ∈ revisions, Git.IsFullHash v.hash) → i.TagsInRange file since? →
      (∀ fault, ¬i.Unlisted file since? fault) →
      (i.logOutcome file since?).EndsWith (i.logTask file since?).limit?
        ⟨0, Utf8.encode texts.flatten, stderr⟩ →
      ∃ history, i.history file since? = .ok history ∧ OmitsAtMostOne revisions history := by
  intro hclaim
  have hlisted := not_unlisted_twinSetting (.ofText "/f") (some ['2'])
  obtain ⟨history, hok, homits⟩ := hclaim twinSetting (.ofText "/f") (some ['2']) _ _ [] rfl prints_twins
    nodup_twins isFullHash_twins nofun hlisted (.inl rfl)
  obtain ⟨e, hsettle, hread⟩ := twinSetting.settle_of_prints (.ofText "/f") (some ['2']) [] rfl
    prints_twins nodup_twins (.inl rfl)
  have htags : twinSetting.TagsInRange (.ofText "/f") (some ['2']) := nofun
  obtain ⟨history', hok', huntagged⟩ := Setting.history_of_ok htags hlisted hsettle
  obtain rfl : history = history' := Except.ok.inj (hok.symm.trans hok')
  exact absurd ((omitsAtMostOne_iff (huntagged.trans hread)).1 homits) (by decide +kernel)

end Repository

end Annals

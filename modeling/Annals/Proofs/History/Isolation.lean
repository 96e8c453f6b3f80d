import Annals.Proofs.History.Calls
import Mathlib.Data.List.Basic

/-!
# Records are read apart

What a log gives is what its segments give when each is read by itself: the entries are those of the
segments, of which the first of each revision are kept (`history_readLog`), and every record is accounted
for, as an entry, by a warning, or as one that the caller excluded (`accountsAll_fates`).
-/

namespace Annals

/-- The entries of a history without those whose revision was seen, or came before. -/
def History.unseen : List Text → History → History
  | _, [] => []
  | seen, e :: es =>
    if seen.contains e.revision then unseen seen es else e :: unseen (seen ++ [e.revision]) es

/-- The first entry of each revision. -/
def History.firstOfEach (h : History) : History := h.unseen []

theorem History.unseen_eq_self {seen : List Text} {h : History} (hnew : ∀ e ∈ h, e.revision ∉ seen)
    (hdistinct : h.revisions.Nodup) : unseen seen h = h := by
  induction h generalizing seen with
  | nil => rfl
  | cons e es ih =>
    obtain ⟨he, hes⟩ := List.forall_mem_cons.1 hnew
    obtain ⟨hfirst, hrest⟩ := List.nodup_cons.1 hdistinct
    have hkeep : ¬seen.contains e.revision = true := by simpa using he
    rw [unseen, if_neg hkeep, ih ?_ hrest]
    intro e' he' hseen
    rcases List.mem_append.1 hseen with hseen | hseen
    · exact hes e' he' hseen
    · rw [List.mem_singleton] at hseen
      exact hfirst (List.mem_map.2 ⟨e', he', hseen⟩)

namespace HistoryFormat

variable {π : Type} {F : HistoryFormat π} {since? : Option Text}

/-- What a fresh reader makes of a log. -/
def readLog (F : HistoryFormat π) (since? : Option Text) (lines : List Text) : Reading History :=
  HistoryReader.readOn F { since := since? } lines

/-- The history and the warnings of a log are those of the fates of its segments. -/
theorem grave_readLog (hF : F.Graded) (since? : Option Text) (c : Cut F.isHeader)
    (hok : ∀ seg ∈ c.segments, ¬F.failsAt seg.header) :
    (F.readLog since? c.lines).grave =
      ⟨(F.fates since? [] c.segments).filterMap Fate.kept?,
        (F.fates since? [] c.segments).filterMap Fate.warning?, none⟩ := by
  rw [readLog, Cut.lines, HistoryReader.readOn_body c.before_plain, Reading.grave_after,
    Reading.filter_flatMap_eq_nil hF.remarks]
  exact HistoryReader.readOn_segments hF rfl rfl hok

theorem grave_readLog_segment (hF : F.Graded) (since? : Option Text) {seg : F.Segment}
    (hok : ¬F.failsAt seg.header) :
    (F.readLog since? seg.lines).grave =
      ⟨(F.fate since? [] seg).kept?.toList, (F.fate since? [] seg).warning?.toList, none⟩ := by
  have hone := grave_readLog hF since? ⟨[], [seg], by simp⟩ (by simpa using hok)
  have hlines : (⟨[], [seg], by simp⟩ : Cut F.isHeader).lines = seg.lines := by simp [Cut.lines]
  rw [hlines] at hone
  rw [hone]
  simp only [fates, List.filterMap_cons, List.filterMap_nil]
  cases F.fate since? [] seg <;> rfl

theorem history_readLog_segment (hF : F.Graded) (since? : Option Text) {seg : F.Segment}
    (hok : ¬F.failsAt seg.header) :
    (F.readLog since? seg.lines).result = (F.fate since? [] seg).kept?.toList :=
  congrArg Reading.result (grave_readLog_segment hF since? hok)

/-! ## Fates apart and together -/

/-- What came before matters only to records that would become entries. -/
theorem fate_eq (F : HistoryFormat π) (since? : Option Text) (seen : List Text) (seg : F.Segment) :
    F.fate since? seen seg =
      match F.fate since? [] seg with
      | .entry e => if seen.contains e.revision then .warned (F.duplicate e.revision) else .entry e
      | other => other := by
  unfold fate
  split
  · simp only [fateOf, List.contains_nil, Bool.false_eq_true, if_false]
    split <;> rfl
  · rfl
  · rfl

theorem filterMap_kept?_fates (F : HistoryFormat π) (since? : Option Text) (seen : List Text)
    (segs : List F.Segment) :
    (F.fates since? seen segs).filterMap Fate.kept? =
      History.unseen seen (segs.flatMap fun seg => (F.fate since? [] seg).kept?.toList) := by
  induction segs generalizing seen with
  | nil => rfl
  | cons seg segs ih =>
    -- only an entry adds to the revisions seen, on both sides
    rw [fates, List.filterMap_cons, List.flatMap_cons, ih, fate_eq]
    cases F.fate since? [] seg with
    | entry e => by_cases h : e.revision ∈ seen <;> simp [History.unseen, h]
    | warned note => simp
    | excluded => simp

/-- The history of a log is made of the histories of its segments, each read by itself. -/
theorem history_readLog (hF : F.Graded) (since? : Option Text) (c : Cut F.isHeader)
    (hok : ∀ seg ∈ c.segments, ¬F.failsAt seg.header) :
    (F.readLog since? c.lines).result =
      History.firstOfEach
        (c.segments.flatMap fun seg => (F.readLog since? seg.lines).result) := by
  have hall := congrArg Reading.result (grave_readLog hF since? c hok)
  have hparts : (c.segments.flatMap fun seg => (F.readLog since? seg.lines).result) =
      c.segments.flatMap fun seg => (F.fate since? [] seg).kept?.toList :=
    List.flatMap_congr fun seg hseg => history_readLog_segment hF since? (hok seg hseg)
  rw [hparts, History.firstOfEach, ← filterMap_kept?_fates]
  exact hall

/-! ## Accounts -/

/-- The fate of a record and the reason for it, in terms of what its segment gives by itself, with the
entries before it. Which headers are refused depends on the tool. -/
inductive Accounts (F : HistoryFormat π) (Refuses : Text → Prop) (since? : Option Text)
    (earlier : History) (seg : F.Segment) : Fate → Prop where
  /-- A record of a new revision is returned. -/
  | entry {e : Entry} (own : (F.readLog since? seg.lines).result = [e])
      (fresh : e.revision ∉ earlier.revisions) : Accounts F Refuses since? earlier seg (.entry e)
  /-- A record of a revision that has an entry is dropped with a warning. -/
  | duplicate {e : Entry} (own : (F.readLog since? seg.lines).result = [e])
      (again : e.revision ∈ earlier.revisions) :
      Accounts F Refuses since? earlier seg (.warned (F.duplicate e.revision))
  /-- A record whose header is refused is dropped with a warning, whatever the bound. -/
  | dropped {note : Note} (refused : Refuses seg.header)
      (own : ∀ since?, (F.readLog since? seg.lines).grave = ⟨[], [note], none⟩) :
      Accounts F Refuses since? earlier seg (.warned note)
  /-- A record that would be returned without the bound is excluded by it. -/
  | excluded {e : Entry} {since : Text} (bound : since? = some since)
      (own : (F.readLog none seg.lines).result = [e]) (excludes : F.excludes since e.revision = true) :
      Accounts F Refuses since? earlier seg .excluded

/-- The fates of records that follow each other, each with the reason for it. -/
inductive AccountsAll (F : HistoryFormat π) (Refuses : Text → Prop) (since? : Option Text) :
    History → List F.Segment → List Fate → Prop where
  | nil {earlier : History} : AccountsAll F Refuses since? earlier [] []
  | cons {earlier : History} {seg : F.Segment} {segs : List F.Segment} {fate : Fate}
      {fates : List Fate} (head : Accounts F Refuses since? earlier seg fate)
      (tail : AccountsAll F Refuses since? (earlier ++ fate.kept?.toList) segs fates) :
      AccountsAll F Refuses since? earlier (seg :: segs) (fate :: fates)

variable {Refuses : Text → Prop}

theorem AccountsAll.length_eq {earlier : History} {segs : List F.Segment} {fates : List Fate}
    (h : AccountsAll F Refuses since? earlier segs fates) : fates.length = segs.length := by
  induction h with
  | nil => rfl
  | cons _ _ ih => rw [List.length_cons, List.length_cons, ih]

theorem accounts_fate (hF : F.Graded) (hrefuses : ∀ line, F.dropsAt line → Refuses line)
    {earlier : History} {seg : F.Segment} (hok : ¬F.failsAt seg.header) :
    Accounts F Refuses since? earlier seg (F.fate since? earlier.revisions seg) := by
  obtain ⟨header, hh⟩ := Option.isSome_iff_exists.1 seg.isHeader_header
  have hown := history_readLog_segment hF since? hok
  have hfree := history_readLog_segment hF none hok
  cases ho : F.opens header with
  | record p =>
    rw [fate_of_record hh ho] at hown hfree ⊢
    generalize F.entry (seg.body.foldl F.extend p) = e at *
    have hnone : (F.readLog none seg.lines).result = [e] := by
      simpa [fateOf] using hfree
    unfold fateOf at hown ⊢
    split
    · next hexcluded =>
      obtain ⟨since, hbound, hsince⟩ := (Option.any_eq_true _ _).1 hexcluded
      exact .excluded hbound hnone hsince
    · next hkept =>
      have hown' : (F.readLog since? seg.lines).result = [e] := by simpa [hkept] using hown
      split
      · next hagain => exact .duplicate hown' (List.contains_iff_mem.1 hagain)
      · next hnew => exact .entry hown' fun hmem => hnew (List.contains_iff_mem.2 hmem)
  | dropped note =>
    rw [fate_of_dropped hh ho]
    refine .dropped (hrefuses _ ⟨header, note, hh, ho⟩) fun since? => ?_
    rw [grave_readLog_segment hF since? hok, fate_of_dropped hh ho]
    rfl
  | failed f => exact absurd ⟨header, f, hh, ho⟩ hok

theorem accountsAll_fates (hF : F.Graded) (hrefuses : ∀ line, F.dropsAt line → Refuses line)
    (earlier : History) {segs : List F.Segment} (hok : ∀ seg ∈ segs, ¬F.failsAt seg.header) :
    AccountsAll F Refuses since? earlier segs (F.fates since? earlier.revisions segs) := by
  induction segs generalizing earlier with
  | nil => exact .nil
  | cons seg segs ih =>
    obtain ⟨hseg, hsegs⟩ := List.forall_mem_cons.1 hok
    refine .cons (accounts_fate hF hrefuses hseg) ?_
    have htail := ih (earlier ++ (F.fate since? earlier.revisions seg).kept?.toList) hsegs
    have hrevisions (h : History) : (earlier ++ h).revisions = earlier.revisions ++ h.revisions :=
      List.map_append
    rwa [hrevisions] at htail

/-! ## What every entry has -/

/-- What is true of every record is true of every entry of a log. -/
theorem forall_mem_readLog {P : Entry → Prop} (hF : F.Maintains P) (since? : Option Text)
    (lines : List Text) : ∀ e ∈ (F.readLog since? lines).result, P e := by
  have hfed : HistoryReader.Sound F P since?
      (Fed.all (HistoryReader.feed F) { since := since? } lines).state :=
    Fed.all_invariant (fun _ line h => h.feed hF line) (.fresh F P since?) lines
  change ∀ e ∈ ((Fed.all (HistoryReader.feed F) { since := since? } lines).state.history F).1, P e
  rw [HistoryReader.history_eq_entries]
  exact fun e he => ((hfed.after hF .history).entries e he).1

/-! ## Logs that were written -/

/-- Whether a block of lines is a record from which an entry is read. -/
def Writes (F : HistoryFormat π) (e : Entry) (block : List Text) : Prop :=
  ∃ line header p body, block = line :: body ∧ F.header? line = some header ∧
    F.opens header = .record p ∧ (∀ line ∈ body, F.isHeader line = false) ∧
      F.entry (body.foldl F.extend p) = e

theorem Writes.segment {e : Entry} {block : List Text} (h : F.Writes e block) :
    ∃ seg : F.Segment, seg.lines = block ∧ ¬F.failsAt seg.header ∧
      ∀ since? seen, F.fate since? seen seg = F.fateOf since? seen e := by
  obtain ⟨line, header, p, body, rfl, hh, ho, hplain, he⟩ := h
  refine ⟨⟨line, body, by simp [isHeader, hh], hplain⟩, rfl, ?_, ?_⟩
  · rintro ⟨header', f, hh', hf⟩
    obtain rfl := Option.some.inj (hh.symm.trans hh')
    rw [ho] at hf
    cases hf
  · intro since? seen
    rw [fate_of_record hh ho, ← he]

theorem exists_segments {es : History} {blocks : List (List Text)}
    (h : List.Forall₂ F.Writes es blocks) :
    ∃ segs : List F.Segment, segs.flatMap Segment.lines = blocks.flatten ∧
      (∀ seg ∈ segs, ¬F.failsAt seg.header) ∧
        ∀ since?, segs.map (F.fate since? []) = es.map (F.fateOf since? []) := by
  induction h with
  | nil => exact ⟨[], rfl, by simp, fun _ => rfl⟩
  | cons hblock _ ih =>
    obtain ⟨seg, rfl, hseg, hfate⟩ := hblock.segment
    obtain ⟨segs, hlines, hsegs, hfates⟩ := ih
    refine ⟨seg :: segs, ?_, List.forall_mem_cons.2 ⟨hseg, hsegs⟩, ?_⟩
    · rw [List.flatMap_cons, hlines, List.flatten_cons]
    · intro since?
      rw [List.map_cons, List.map_cons, hfate, hfates]

/-- From a log of records of distinct revisions, those are read that the bound does not exclude. -/
theorem readLog_of_writes_filter (hF : F.Graded) (since? : Option Text) {es : History}
    {blocks : List (List Text)} (h : List.Forall₂ F.Writes es blocks) (hdistinct : es.revisions.Nodup) :
    (F.readLog since? blocks.flatten).result =
        es.filter (fun e => !since?.any (F.excludes · e.revision)) ∧
      (F.readLog since? blocks.flatten).failure? = none := by
  obtain ⟨segs, hlines, hok, hfates⟩ := exists_segments h
  have hgrave := grave_readLog hF since? ⟨[], segs, by simp⟩ hok
  simp only [Cut.lines, List.nil_append, hlines] at hgrave
  have hkept (es : History) : (es.flatMap fun e => (F.fateOf since? [] e).kept?.toList) =
      es.filter fun e => !since?.any (F.excludes · e.revision) := by
    induction es with
    | nil => rfl
    | cons e es ih =>
      rw [List.flatMap_cons, ih, List.filter_cons, fateOf]
      cases since?.any (F.excludes · e.revision) <;> rfl
  have hown : (segs.flatMap fun seg => (F.fate since? [] seg).kept?.toList) =
      es.filter fun e => !since?.any (F.excludes · e.revision) := by
    rw [← List.flatMap_map (F.fate since? []) fun fate => fate.kept?.toList, hfates,
      List.flatMap_map, hkept]
  have hnodup : (History.revisions (es.filter fun e => !since?.any (F.excludes · e.revision))).Nodup :=
    hdistinct.sublist (List.filter_sublist.map Entry.revision)
  rw [filterMap_kept?_fates, hown, History.unseen_eq_self (by simp) hnodup] at hgrave
  exact ⟨congrArg Reading.result hgrave, congrArg Reading.failure? hgrave⟩

/-- From a log of records of distinct revisions that are not excluded, all of them are read. -/
theorem readLog_of_writes (hF : F.Graded) {es : History} {blocks : List (List Text)}
    (h : List.Forall₂ F.Writes es blocks) (hdistinct : es.revisions.Nodup)
    (hkept : ∀ e ∈ es, since?.any (F.excludes · e.revision) = false) :
    (F.readLog since? blocks.flatten).result = es ∧
      (F.readLog since? blocks.flatten).failure? = none := by
  obtain ⟨hread, hfailure⟩ := readLog_of_writes_filter hF since? h hdistinct
  refine ⟨hread.trans ?_, hfailure⟩
  rw [List.filter_eq_self]
  intro e he
  rw [hkept e he]
  rfl

end HistoryFormat

end Annals

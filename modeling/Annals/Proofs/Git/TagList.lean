import Annals.Proofs.Git.Tags
import Annals.Proofs.History.TagOrder
import Annals.Proofs.Text.Fields
import Annals.Proofs.Text.Order
import Mathlib.Data.List.Forall2
import Mathlib.Data.List.Perm.Basic

/-!
# The tags of commits

A line that is accepted tells of the name of a commit and of when it was given (`told?`). The records
that are read are those of the commits that were told of, each with all its names in order and its latest
date (`Lists`), and there is one list of them (`Lists.unique`). So it is the same in which order lines come
(`tags_listed`). The invariant of the reader behind it is `Gathers`, kept by every line.
-/

namespace Annals.Git.TagReader

/-! ## What is told -/

/-- A name that a commit carries, and when it was given. -/
structure Told where
  commit : Text
  name : Text
  date : Moment
  deriving DecidableEq

/-- Whether a line tells of a tag. The commit is the second field, or the first if the second is
empty. -/
def Tells (line : Text) (t : Told) : Prop :=
  ∃ object peeled date : Text, '\t' ∉ object ∧ '\t' ∉ peeled ∧ '\t' ∉ date ∧
    line = object ++ '\t' :: (peeled ++ '\t' :: (date ++ '\t' :: t.name)) ∧
    t.commit = (if peeled = [] then object else peeled) ∧ readDate datePatterns date = .ok t.date

/-- What a line tells, if it is accepted. -/
def told? (line : Text) : Option Told :=
  match Text.fieldsUpTo '\t' 3 line with
  | [object, peeled, date, name] =>
    match readDate datePatterns date with
    | .ok date => some ⟨if peeled.isEmpty then object else peeled, name, date⟩
    | .error _ => none
  | _ => none

theorem exists_of_fieldsUpTo {line object peeled date name : Text}
    (h : Text.fieldsUpTo '\t' 3 line = [object, peeled, date, name]) :
    line = object ++ '\t' :: (peeled ++ '\t' :: (date ++ '\t' :: name)) ∧
      '\t' ∉ object ∧ '\t' ∉ peeled ∧ '\t' ∉ date := by
  simp only [Text.fieldsUpTo] at h
  split at h
  · simp at h
  · next a rest hfirst =>
    split at h
    · simp at h
    · next b rest' hsecond =>
      split at h
      · simp at h
      · next c rest'' hthird =>
        simp only [List.cons.injEq, and_true] at h
        obtain ⟨rfl, rfl, rfl, rfl⟩ := h
        obtain ⟨rfl, hobject⟩ := Text.cut_eq_some_iff.1 hfirst
        obtain ⟨rfl, hpeeled⟩ := Text.cut_eq_some_iff.1 hsecond
        obtain ⟨rfl, hdate⟩ := Text.cut_eq_some_iff.1 hthird
        exact ⟨rfl, hobject, hpeeled, hdate⟩

/-- The fields of a line that tells of a tag. -/
theorem Tells.exists_fields {line : Text} {t : Told} (h : Tells line t) : ∃ object peeled date,
    Text.fieldsUpTo '\t' 3 line = [object, peeled, date, t.name] ∧
      t.commit = (if peeled = [] then object else peeled) ∧ readDate datePatterns date = .ok t.date := by
  obtain ⟨object, peeled, date, hobject, hpeeled, hdate, rfl, hcommit, hread⟩ := h
  refine ⟨object, peeled, date, ?_, hcommit, hread⟩
  rw [Text.fieldsUpTo_append _ _ hobject, Text.fieldsUpTo_append _ _ hpeeled,
    Text.fieldsUpTo_append _ _ hdate, Text.fieldsUpTo]

theorem told?_eq_some_iff {line : Text} {t : Told} : told? line = some t ↔ Tells line t := by
  constructor
  · intro h
    unfold told? at h
    split at h
    · next object peeled date name hfields =>
      obtain ⟨hline, hobject, hpeeled, hdate⟩ := exists_of_fieldsUpTo hfields
      split at h
      · next hread =>
        obtain rfl := Option.some.inj h
        exact ⟨object, peeled, date, hobject, hpeeled, hdate, hline, by simp, hread⟩
      · exact nomatch h
    · exact nomatch h
  · intro h
    obtain ⟨object, peeled, date, hfields, hcommit, hread⟩ := h.exists_fields
    obtain ⟨commit, name, date'⟩ := t
    obtain rfl : commit = _ := hcommit
    simp only [told?, hfields, hread, List.isEmpty_iff]

/-- Whether a line is neither empty nor accepted. -/
def IsRejected (line : Text) : Prop := line ≠ [] ∧ told? line = none

instance (line : Text) : Decidable (IsRejected line) := inferInstanceAs (Decidable (_ ∧ _))

/-- Whether a line gives a warning and nothing else, whatever was read before. -/
def Warns (line : Text) (note : Note) : Prop :=
  note.level = .warning ∧ ∀ r : TagReader, r.feed line = ⟨r, [note], none⟩

variable {r : TagReader} {line : Text} {lines : List Text} {t : Told} {told told' : List Told}
  {c : Text} {tags tags' : List Tag}

theorem feed_of_told (r : TagReader) (h : told? line = some t) :
    r.feed line = ⟨r.add t.commit t.name t.date, [], none⟩ := by
  obtain ⟨object, peeled, date, hfields, hcommit, hread⟩ := (told?_eq_some_iff.1 h).exists_fields
  have hdate : date? line = some date := by rw [date?, hfields]
  unfold feed
  rw [if_neg (ne_nil_of_date? hdate), hfields]
  simp only [hread, List.isEmpty_iff, ← hcommit]

theorem feed_nil (r : TagReader) : r.feed [] = ⟨r, [], none⟩ := rfl

theorem failure?_feed_eq_none (r : TagReader) (hdate : ¬Overflows line) :
    (r.feed line).failure? = none := by
  rw [failure?_feed, if_neg hdate]

theorem exists_warns (h : IsRejected line) (hdate : ¬Overflows line) : ∃ note, Warns line note := by
  obtain ⟨hne, htold⟩ := h
  have hempty : ¬line.isEmpty = true := fun hline => hne (List.isEmpty_iff.1 hline)
  unfold told? at htold
  split at htold
  · next object peeled date name hfields =>
    split at htold
    · exact nomatch htold
    · next fault hread =>
      cases fault with
      | unparseable text =>
        simp only [Warns, feed, if_neg hempty, hfields, hread]
        exact ⟨_, rfl, fun _ => rfl⟩
      | outOfRange =>
        have hfield : date? line = some date := by rw [date?, hfields]
        exact absurd ⟨date, hfield, hread⟩ hdate
  · next hfields =>
    refine ⟨.warning .gitRecords ("Dropping malformed git tag line: " ++ line.quoted), rfl, fun r => ?_⟩
    unfold feed
    rw [if_neg hempty]
    split
    · next hfour => exact absurd hfour (hfields _ _ _ _)
    · rfl

/-! ## Records of what is told -/

/-- The names that a commit was told to carry. -/
def namesTold (told : List Told) (c : Text) : List Text :=
  (told.filter (·.commit = c)).map (·.name)

/-- Whether a date is the latest that was told of a commit. -/
def IsLatest (told : List Told) (c : Text) (m : Moment) : Prop :=
  (∃ t ∈ told, t.commit = c ∧ t.date = m) ∧ ∀ t ∈ told, t.commit = c → t.date.instant ≤ m.instant

/-- Whether a list holds one record for each commit that was told of, with all its names in order and its
latest date, by date and then by revision. -/
structure Lists (told : List Told) (tags : List Tag) : Prop where
  commits : ∀ c, c ∈ tags.map (·.revision) ↔ ∃ t ∈ told, t.commit = c
  distinct : (tags.map (·.revision)).Nodup
  names : ∀ tag ∈ tags, tag.names.Perm (namesTold told tag.revision) ∧
    tag.names.Pairwise (Text.le · ·)
  latest : ∀ tag ∈ tags, IsLatest told tag.revision tag.date
  ordered : tags.Pairwise fun a b => a.date.instant < b.date.instant ∨
    a.date.instant = b.date.instant ∧ a.revision < b.revision

theorem IsLatest.perm {m : Moment} (h : IsLatest told c m) (hperm : told.Perm told') :
    IsLatest told' c m := by
  obtain ⟨⟨t, ht, hlatest⟩, hle⟩ := h
  exact ⟨⟨t, hperm.mem_iff.1 ht, hlatest⟩, fun t ht => hle t (hperm.mem_iff.2 ht)⟩

/-- The order in which things are told does not matter. -/
theorem Lists.perm (h : Lists told tags) (hperm : told.Perm told') : Lists told' tags where
  commits c := (h.commits c).trans
    ⟨fun ⟨t, ht, hc⟩ => ⟨t, hperm.mem_iff.1 ht, hc⟩, fun ⟨t, ht, hc⟩ => ⟨t, hperm.mem_iff.2 ht, hc⟩⟩
  distinct := h.distinct
  names tag htag := by
    obtain ⟨hnames, hordered⟩ := h.names tag htag
    exact ⟨hnames.trans ((hperm.filter _).map _), hordered⟩
  latest tag htag := (h.latest tag htag).perm hperm
  ordered := h.ordered

/-- A record of what was told is that of its commit. -/
theorem Lists.mem_of_mem (h : Lists told tags) (h' : Lists told tags')
    (hutc : ∀ t ∈ told, t.date.toUtc? = some t.date) {tag : Tag} (htag : tag ∈ tags) : tag ∈ tags' := by
  have hcommit := (h.commits tag.revision).1 (List.mem_map_of_mem htag)
  obtain ⟨tag', htag', hrevision⟩ := List.mem_map.1 ((h'.commits tag.revision).2 hcommit)
  obtain ⟨hnames, hordered⟩ := h.names tag htag
  obtain ⟨hnames', hordered'⟩ := h'.names tag' htag'
  obtain ⟨⟨t, ht, hc, hdate⟩, hle⟩ := h.latest tag htag
  obtain ⟨⟨t', ht', hc', hdate'⟩, hle'⟩ := h'.latest tag' htag'
  rw [hrevision] at hnames' hc' hle'
  -- each date is told of the commit, and so is not later than the other
  have hinstant : tag.date.instant = tag'.date.instant := by
    apply Int.le_antisymm
    · rw [← hdate]
      exact hle' t ht hc
    · rw [← hdate']
      exact hle t' ht' hc'
  have hdates : tag.date = tag'.date :=
    Moment.eq_of_instant_eq (hdate ▸ hutc t ht) (hdate' ▸ hutc t' ht') hinstant
  have hsame : tag.names = tag'.names := Text.eq_of_perm hordered hordered' (hnames.trans hnames'.symm)
  obtain ⟨date, revision, names⟩ := tag
  obtain ⟨date', revision', names'⟩ := tag'
  obtain rfl : date = date' := hdates
  obtain rfl : revision' = revision := hrevision
  obtain rfl : names = names' := hsame
  exact htag'

/-- There is one list of what was told. -/
theorem Lists.unique (h : Lists told tags) (h' : Lists told tags')
    (hutc : ∀ t ∈ told, t.date.toUtc? = some t.date) : tags = tags' := by
  have hbefore {tags : List Tag} (h : Lists told tags) : tags.Pairwise Tag.Before :=
    h.ordered.imp fun hab => hab.imp_right fun ⟨hinstant, hlt⟩ => ⟨hinstant, .inl hlt⟩
  exact Tag.eq_of_pairwise_before (hbefore h) (hbefore h') fun tag =>
    ⟨h.mem_of_mem h' hutc, h'.mem_of_mem h hutc⟩

/-! ## Reading -/

/-- What is known of a commit from what was told: nothing, or its latest date and its names. -/
def IsKnown (told : List Told) (c : Text) : Option (Moment × List Text) → Prop
  | none => ∀ t ∈ told, t.commit ≠ c
  | some (latest, names) => IsLatest told c latest ∧ names = namesTold told c

/-- Whether a reader knows of each commit what was told. -/
structure Gathers (told : List Told) (r : TagReader) : Prop where
  distinct : (Assoc.keys r.commits).Nodup
  known : ∀ c, IsKnown told c (r.commits.get? c)

theorem IsKnown.of_ne {o : Option (Moment × List Text)} (h : IsKnown told c o) (hne : t.commit ≠ c) :
    IsKnown (told ++ [t]) c o := by
  have hmem (u : Told) (hu : u.commit = c) : u ∈ told ++ [t] ↔ u ∈ told := by
    rw [List.mem_append, List.mem_singleton, or_iff_left]
    rintro rfl
    exact hne hu
  cases o with
  | none =>
    intro u hu hc
    exact h u ((hmem u hc).1 hu) hc
  | some known =>
    obtain ⟨latest, names⟩ := known
    obtain ⟨⟨⟨u, hu, hc, hdate⟩, hle⟩, hnames⟩ := h
    refine ⟨⟨⟨u, (hmem u hc).2 hu, hc, hdate⟩, fun u hu hc => hle u ((hmem u hc).1 hu) hc⟩, ?_⟩
    rw [hnames, namesTold, namesTold, List.filter_append]
    simp [hne]

/-- A commit that nothing was told of before. -/
theorem IsKnown.of_none (h : IsKnown told t.commit none) :
    IsKnown (told ++ [t]) t.commit (some (t.date, [t.name])) := by
  have hnone : told.filter (·.commit = t.commit) = [] := by
    rw [List.filter_eq_nil_iff]
    intro u hu
    simpa using h u hu
  refine ⟨⟨⟨t, by simp, rfl, rfl⟩, fun u hu hc => ?_⟩, ?_⟩
  · rcases List.mem_append.1 hu with hu | hu
    · exact absurd hc (h u hu)
    · rw [List.mem_singleton.1 hu]
  · rw [namesTold, List.filter_append, hnone]
    simp

/-- A commit with one more name, and with the later one of the dates. -/
theorem IsKnown.of_some {latest : Moment} {names : List Text}
    (h : IsKnown told t.commit (some (latest, names))) :
    IsKnown (told ++ [t]) t.commit
      (some (if latest.instant < t.date.instant then t.date else latest, names ++ [t.name])) := by
  obtain ⟨⟨⟨u, hu, hc, hdate⟩, hle⟩, hnames⟩ := h
  refine ⟨⟨?_, fun v hv hcv => ?_⟩, ?_⟩
  · split
    · exact ⟨t, by simp, rfl, rfl⟩
    · exact ⟨u, List.mem_append_left _ hu, hc, hdate⟩
  · rcases List.mem_append.1 hv with hv | hv
    · have hold := hle v hv hcv
      split
      · omega
      · exact hold
    · obtain rfl := List.mem_singleton.1 hv
      split
      · exact Int.le_refl _
      · omega
  · rw [hnames, namesTold, namesTold, List.filter_append]
    simp

theorem gathers_nil : Gathers [] {} := ⟨List.nodup_nil, fun _ => List.forall_mem_nil _⟩

theorem Gathers.add (h : Gathers told r) (t : Told) :
    Gathers (told ++ [t]) (r.add t.commit t.name t.date) := by
  obtain ⟨known, hadd, hknown⟩ : ∃ known,
      r.add t.commit t.name t.date = ⟨r.commits.put t.commit known⟩ ∧
        IsKnown (told ++ [t]) t.commit (some known) := by
    have hcommit := h.known t.commit
    unfold TagReader.add
    cases hget : r.commits.get? t.commit with
    | none =>
      rw [hget] at hcommit
      exact ⟨_, rfl, hcommit.of_none⟩
    | some known =>
      rw [hget] at hcommit
      exact ⟨_, rfl, hcommit.of_some⟩
  rw [hadd]
  refine ⟨Assoc.nodup_keys_put _ _ h.distinct, fun c => ?_⟩
  rw [Assoc.get?_put]
  split
  · next hc => exact hc ▸ hknown
  · next hc => exact (h.known c).of_ne hc

/-- A line that is not refused is told, or changes nothing. -/
theorem Gathers.after_feed (h : Gathers told r) (hdate : ¬Overflows line) :
    Gathers (told ++ (told? line).toList) (r.feed line).state := by
  cases htold : told? line with
  | some t =>
    rw [feed_of_told r htold]
    exact h.add t
  | none =>
    rw [Option.toList_none, List.append_nil]
    by_cases hline : line = []
    · rw [hline, feed_nil]
      exact h
    · obtain ⟨note, -, hfeed⟩ := exists_warns ⟨hline, htold⟩ hdate
      rw [hfeed]
      exact h

/-- All that lines tell is known when they have been read. -/
theorem Gathers.all (h : Gathers told r) (hdates : ∀ line ∈ lines, ¬Overflows line) :
    Gathers (told ++ lines.filterMap told?) (Fed.all feed r lines).state := by
  induction lines generalizing told r with
  | nil =>
    rw [List.filterMap_nil, List.append_nil]
    exact h
  | cons line lines ih =>
    obtain ⟨hline, hlines⟩ := List.forall_mem_cons.1 hdates
    have hsplit : (line :: lines).filterMap told? = (told? line).toList ++ lines.filterMap told? := by
      rw [List.filterMap_cons]
      cases told? line <;> rfl
    rw [hsplit, ← List.append_assoc]
    simp only [Fed.all, failure?_feed_eq_none r hline]
    exact ih (h.after_feed hline) hlines

/-- The records of a reader are of different commits, and hold what it knows of them. -/
theorem Gathers.mem_records_iff (h : Gathers told r) {tag : Tag} : tag ∈ r.records ↔
    ∃ names, r.commits.get? tag.revision = some (tag.date, names) ∧
      tag.names = names.mergeSort Text.le := by
  simp only [Assoc.get?_eq_some_iff h.distinct]
  constructor
  · intro htag
    obtain ⟨⟨c, latest, names⟩, hc, rfl⟩ := List.mem_map.1 htag
    exact ⟨names, hc, rfl⟩
  · rintro ⟨names, hc, hnames⟩
    obtain ⟨date, revision, names'⟩ := tag
    obtain rfl : names' = names.mergeSort Text.le := hnames
    exact List.mem_map.2 ⟨_, hc, rfl⟩

theorem map_revision_records (r : TagReader) : r.records.map (·.revision) = Assoc.keys r.commits := by
  rw [records, List.map_map]
  rfl

/-- What a reader knows is listed when it is asked for. -/
theorem Gathers.lists (h : Gathers told r) (hutc : ∀ t ∈ told, t.date.toUtc? = some t.date) :
    Lists told r.tags := by
  have hperm : r.tags.Perm r.records := List.mergeSort_perm r.records Tag.le
  have hdistinct : (r.tags.map (·.revision)).Nodup := by
    rw [(hperm.map _).nodup_iff, map_revision_records]
    exact h.distinct
  have hknown : ∀ tag ∈ r.tags, IsLatest told tag.revision tag.date ∧
      tag.names = (namesTold told tag.revision).mergeSort Text.le := by
    intro tag htag
    obtain ⟨names, hget, hnames⟩ := h.mem_records_iff.1 (hperm.mem_iff.1 htag)
    have hcommit := h.known tag.revision
    rw [hget] at hcommit
    exact ⟨hcommit.1, hcommit.2 ▸ hnames⟩
  have hdates : ∀ tag ∈ r.records, tag.date.toUtc? = some tag.date := by
    intro tag htag
    obtain ⟨⟨t, ht, -, hdate⟩, -⟩ := (hknown tag (hperm.mem_iff.2 htag)).1
    exact hdate ▸ hutc t ht
  constructor
  case commits =>
    intro c
    have hcommit := h.known c
    rw [(hperm.map _).mem_iff]
    constructor
    · intro hc
      obtain ⟨tag, htag, rfl⟩ := List.mem_map.1 hc
      obtain ⟨⟨t, ht, htc, -⟩, -⟩ := (hknown tag (hperm.mem_iff.2 htag)).1
      exact ⟨t, ht, htc⟩
    · rintro ⟨t, ht, htc⟩
      cases hget : r.commits.get? c with
      | none =>
        rw [hget] at hcommit
        exact absurd htc (hcommit t ht)
      | some known =>
        obtain ⟨latest, names⟩ := known
        exact List.mem_map.2 ⟨⟨latest, c, _⟩, h.mem_records_iff.2 ⟨names, hget, rfl⟩, rfl⟩
  case distinct => exact hdistinct
  case names =>
    intro tag htag
    rw [(hknown tag htag).2]
    exact ⟨List.mergeSort_perm _ _, Text.pairwise_mergeSort _⟩
  case latest => exact fun tag htag => (hknown tag htag).1
  case ordered =>
    have hrecords : r.records.Nodup :=
      List.Nodup.of_map (·.revision) ((hperm.map _).nodup_iff.1 hdistinct)
    have hne : r.tags.Pairwise fun a b => a.revision ≠ b.revision := List.pairwise_map.1 hdistinct
    refine ((Tag.pairwise_before_sort hrecords hdates).and hne).imp ?_
    rintro a b ⟨hbefore, hab⟩
    refine hbefore.imp_right fun ⟨hinstant, hrest⟩ => ⟨hinstant, ?_⟩
    exact hrest.resolve_right fun hsame => hab hsame.1

theorem utc_of_told {line : Text} (h : told? line = some t) : t.date.toUtc? = some t.date := by
  obtain ⟨_, _, _, _, _, _, _, _, hread⟩ := told?_eq_some_iff.1 h
  exact toUtc?_of_readDate hread

theorem utc_told (lines : List Text) : ∀ t ∈ lines.filterMap told?, t.date.toUtc? = some t.date := by
  intro t ht
  obtain ⟨line, -, hline⟩ := List.mem_filterMap.1 ht
  exact utc_of_told hline

theorem lists_readOn (hdates : ∀ line ∈ lines, ¬Overflows line) :
    Lists (lines.filterMap told?) (readOn {} lines).result := by
  have hall := gathers_nil.all hdates
  rw [List.nil_append] at hall
  exact hall.lists (utc_told lines)

/-- The notes are one warning for each line that is neither empty nor accepted. -/
theorem warns_readOn (hdates : ∀ line ∈ lines, ¬Overflows line) (r : TagReader) :
    List.Forall₂ Warns (lines.filter (IsRejected ·)) (readOn r lines).notes := by
  induction lines generalizing r with
  | nil => exact .nil
  | cons line lines ih =>
    obtain ⟨hline, hlines⟩ := List.forall_mem_cons.1 hdates
    have hnotes : (readOn r (line :: lines)).notes =
        (r.feed line).notes ++ (readOn (r.feed line).state lines).notes := by
      simp only [readOn, Fed.all, failure?_feed_eq_none r hline]
    rw [hnotes, List.filter_cons]
    by_cases hrejected : IsRejected line
    · obtain ⟨note, hwarns⟩ := exists_warns hrejected hline
      rw [if_pos (decide_eq_true hrejected), hwarns.2 r]
      exact .cons hwarns (ih hlines r)
    · have hquiet : (r.feed line).notes = [] := by
        cases htold : told? line with
        | some t => rw [feed_of_told r htold]
        | none =>
          obtain rfl : line = [] := by
            by_contra hne
            exact hrejected ⟨hne, htold⟩
          rw [feed_nil]
      rw [if_neg (by simpa using hrejected), hquiet, List.nil_append]
      exact ih hlines _

/-! ## Asking in between -/

/-- What can be asked of a reader. -/
inductive Call where
  | feed (line : Text)
  | tags
  deriving DecidableEq

/-- The line that is fed, if one is. -/
def Call.line? : Call → Option Text
  | .feed line => some line
  | .tags => none

/-- The reader after a call. The records are made when they are asked for, and leave it as it is. -/
def after (r : TagReader) : Call → TagReader
  | .feed line => (r.feed line).state
  | .tags => r

theorem foldl_after {calls : List Call} (hcalls : calls.filterMap Call.line? = lines)
    (hdates : ∀ line ∈ lines, ¬Overflows line) (r : TagReader) :
    calls.foldl after r = (Fed.all feed r lines).state := by
  subst hcalls
  induction calls generalizing r with
  | nil => rfl
  | cons call calls ih =>
    cases call with
    | tags => exact ih r hdates
    | feed line =>
      obtain ⟨hline, hlines⟩ := List.forall_mem_cons.1 hdates
      have hcons : Call.line? (.feed line) = some line := rfl
      rw [List.foldl_cons, List.filterMap_cons_some hcons]
      simp only [Fed.all, failure?_feed_eq_none r hline]
      exact ih _ hlines

/-! ## The list -/

/-- From lines whose dates are in range, the records are read that list what the accepted lines tell. A
line that is neither empty nor accepted leaves nothing but a warning, asking in between changes nothing,
and lines in any other order give the same. -/
theorem tags_listed (lines : List Text) (hdates : ∀ line ∈ lines, ¬Overflows line) :
    (readOn {} lines).failure? = none ∧
    (∀ line t, told? line = some t ↔ Tells line t) ∧
    Lists (lines.filterMap told?) (readOn {} lines).result ∧
    List.Forall₂ Warns (lines.filter (IsRejected ·)) (readOn {} lines).notes ∧
    (∀ calls : List Call, calls.filterMap Call.line? = lines →
      (calls.foldl after {}).tags = (readOn {} lines).result) ∧
    ∀ lines' : List Text, lines.Perm lines' → (readOn {} lines').result = (readOn {} lines).result := by
  have hlists := lists_readOn hdates
  refine ⟨Fed.failure?_all_eq_none failure?_feed {} hdates, fun _ _ => told?_eq_some_iff, hlists,
    warns_readOn hdates {}, ?_, ?_⟩
  · intro calls hcalls
    rw [foldl_after hcalls hdates]
    rfl
  · intro lines' hperm
    have hlists' := lists_readOn fun line hline => hdates line (hperm.mem_iff.2 hline)
    exact hlists'.unique (hlists.perm (hperm.filterMap told?)) (utc_told lines')

/-- A commit with a lightweight and an annotated tag, and a line that is not accepted. -/
theorem tags_listed_of_two_names :
    let lines : List Text := ["a1\t\t2020-01-02T00:00:00Z\tv2", "malformed", "",
      "b2\ta1\t2020-01-02T01:00:00+02:00\tv1"]
    (∀ line ∈ lines, ¬Overflows line) ∧
      (lines.filterMap told?).map (fun t => (t.commit, t.name)) = [⟨"a1", "v2"⟩, ⟨"a1", "v1"⟩] ∧
      Lists (lines.filterMap told?) (readOn {} lines).result ∧
      (readOn {} lines).notes.length = 1 ∧
      (readOn {} lines.reverse).result = (readOn {} lines).result := by
  intro lines
  have hdates : ∀ line ∈ lines, ¬Overflows line := by decide +kernel
  obtain ⟨-, -, hlists, hwarns, -, hperm⟩ := tags_listed lines hdates
  exact ⟨hdates, by decide +kernel, hlists, hwarns.length_eq.symm.trans (by decide +kernel),
    hperm _ lines.reverse_perm.symm⟩

end Annals.Git.TagReader

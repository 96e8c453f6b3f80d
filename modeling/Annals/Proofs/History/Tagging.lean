import Annals.Environment
import Annals.History.Tag
import Mathlib.Data.List.Induction

/-!
# Assigned tags

The names that are gathered for a revision are those of its records, one after the other
(`Tag.get?_namesByRevision`). So an assigned history is the history with other tags
(`History.assignTags_eq_map`): each entry has the names of its commit, or the tags it had if there are
none.
-/

namespace Annals

namespace Tag

variable {tags : List Tag} {revision : Text}

theorem namesOf_eq_nil_iff : namesOf tags revision = [] ↔
    ∀ tag ∈ tags, tag.revision = revision → tag.names = [] := by
  simp [namesOf, List.flatMap_eq_nil_iff]

theorem namesOf_of_notMem (h : revision ∉ tags.map (·.revision)) : namesOf tags revision = [] :=
  namesOf_eq_nil_iff.2 fun tag htag heq => absurd (List.mem_map.2 ⟨tag, htag, heq⟩) h

theorem namesOf_concat (tags : List Tag) (tag : Tag) (revision : Text) :
    namesOf (tags ++ [tag]) revision =
      namesOf tags revision ++ if tag.revision = revision then tag.names else [] := by
  rw [namesOf, namesOf, List.filter_append, List.flatMap_append]
  by_cases h : tag.revision = revision <;> simp [h]

/-- Every revision that a record names is there, with the names of all its records. -/
theorem get?_namesByRevision (tags : List Tag) (revision : Text) :
    (namesByRevision tags).get? revision =
      if revision ∈ tags.map (·.revision) then some (namesOf tags revision) else none := by
  induction tags using List.reverseRecOn with
  | nil => rfl
  | append_singleton tags tag ih =>
    have hstep : namesByRevision (tags ++ [tag]) =
        (namesByRevision tags).extend tag.revision tag.names := by
      simp [namesByRevision]
    rw [hstep, Assoc.get?_extend, ih, namesOf_concat]
    by_cases h : tag.revision = revision
    · subst h
      by_cases hmem : tag.revision ∈ tags.map (·.revision)
      · simp [hmem]
      · simp [hmem, namesOf_of_notMem hmem]
    · have hne : revision ≠ tag.revision := Ne.symm h
      simp [h, hne]

theorem namesByRevision_eq_nil_iff : namesByRevision tags = [] ↔ tags = [] := by
  constructor
  · intro h
    refine List.eq_nil_iff_forall_not_mem.2 fun tag htag => ?_
    have hget := get?_namesByRevision tags tag.revision
    rw [h, if_pos (List.mem_map.2 ⟨tag, htag, rfl⟩)] at hget
    exact nomatch hget
  · rintro rfl
    rfl

end Tag

theorem Entry.tagRevision_eq (e : Entry) :
    e.tagRevision = (e.changeset.bind Text.nonEmpty?).getD e.revision := by
  unfold tagRevision
  rcases e.changeset with _ | _ | ⟨c, cs⟩ <;> rfl

/-- The tags that an entry is given: the names of all records for its commit, one record after the other,
or the tags that it has if there are no such names. -/
def Entry.tagsAmong (tags : List Tag) (e : Entry) : List Text :=
  let commit := (e.changeset.bind Text.nonEmpty?).getD e.revision
  let names := Tag.namesOf tags commit
  if names = [] then e.tags else names

namespace Entry

variable (e : Entry) (tags : List Tag)

theorem tagsAmong_eq : e.tagsAmong tags =
    if Tag.namesOf tags e.tagRevision = [] then e.tags else Tag.namesOf tags e.tagRevision := by
  rw [tagRevision_eq]
  rfl

theorem tagsAmong_of_untagged (h : e.tags = []) :
    e.tagsAmong tags = Tag.namesOf tags e.tagRevision := by
  rw [tagsAmong_eq]
  split
  · next hnone => rw [h, hnone]
  · rfl

theorem tagsAmong_nil : e.tagsAmong [] = e.tags := by
  rw [tagsAmong_eq]
  exact if_pos rfl

/-- What an entry was given before is not kept where it is given something again. -/
theorem tagsAmong_withTags : (e.withTags (e.tagsAmong tags)).tagsAmong tags = e.tagsAmong tags := by
  rw [tagsAmong_eq, tagsAmong_eq]
  change (if Tag.namesOf tags e.tagRevision = [] then ite _ _ _ else _) = _
  split <;> rfl

theorem assignTags_namesByRevision :
    e.assignTags (Tag.namesByRevision tags) = e.withTags (e.tagsAmong tags) := by
  rw [assignTags, Tag.get?_namesByRevision, tagsAmong_eq]
  by_cases hmem : e.tagRevision ∈ tags.map (·.revision)
  · rw [if_pos hmem]
    cases hnames : Tag.namesOf tags e.tagRevision with
    | nil => rfl
    | cons n ns => rfl
  · rw [if_neg hmem, if_pos (Tag.namesOf_of_notMem hmem)]
    rfl

end Entry

namespace History

variable (h : History) (tags : List Tag)

theorem assignTags?_eq : h.assignTags? tags =
    if tags = [] then none else some (h.map fun e => e.withTags (e.tagsAmong tags)) := by
  have hmap : h.map (Entry.assignTags (Tag.namesByRevision tags)) =
      h.map fun e => e.withTags (e.tagsAmong tags) :=
    List.map_congr_left fun e _ => e.assignTags_namesByRevision tags
  rw [← hmap]
  simp only [assignTags?, List.isEmpty_iff, Tag.namesByRevision_eq_nil_iff]

theorem assignTags_eq_map : h.assignTags tags = h.map fun e => e.withTags (e.tagsAmong tags) := by
  rw [assignTags, assignTags?_eq]
  split
  · next hnil =>
    subst hnil
    refine (List.map_id' h).symm.trans (List.map_congr_left fun e _ => ?_)
    rw [Entry.tagsAmong_nil]
    rfl
  · rfl

theorem assignTags_of_untagged {h : History} (hempty : ∀ e ∈ h, e.tags = []) (tags : List Tag) :
    h.assignTags tags = h.map fun e => e.withTags (Tag.namesOf tags e.tagRevision) := by
  rw [assignTags_eq_map]
  exact List.map_congr_left fun e he => by rw [e.tagsAmong_of_untagged tags (hempty e he)]

end History

/-- Whether two lists have the same records for every revision, in the same order; so they differ only in
how records of different revisions stand to each other. -/
def Tag.SameByRevision (tags tags' : List Tag) : Prop :=
  ∀ revision, tags'.filter (·.revision = revision) = tags.filter (·.revision = revision)

/-- Neighbours of different revisions can change places. -/
theorem Tag.sameByRevision_swap {a b : Tag} (hne : a.revision ≠ b.revision) (front back : List Tag) :
    SameByRevision (front ++ a :: b :: back) (front ++ b :: a :: back) := by
  intro revision
  simp only [List.filter_append, List.filter_cons]
  by_cases ha : a.revision = revision
  · have hb : b.revision ≠ revision := fun hb => hne (ha.trans hb.symm)
    simp [ha, hb]
  · simp [ha]

theorem Tag.SameByRevision.namesOf_eq {tags tags' : List Tag} (h : SameByRevision tags tags')
    (revision : Text) : namesOf tags' revision = namesOf tags revision := by
  rw [namesOf, h, namesOf]

theorem Shelf.assignTags_eq {shelf : Shelf Entry} {place : Nat} {h : History}
    (hread : shelf.read? place = some h) (tags : List Tag) :
    shelf.assignTags place tags =
      if tags = [] then (place, shelf) else (shelf.next, shelf.add (h.assignTags tags)) := by
  rw [assignTags, hread, Option.bind_some, History.assignTags?_eq, History.assignTags_eq_map]
  by_cases hnil : tags = [] <;> simp [hnil]

/-- Assigning tags changes nothing but tags, and changes no history that is there: every entry of the
result is one of the history with the names of its commit, or with its own tags if there are none. Doing
it again changes nothing, nor does the order of records of different revisions. -/
theorem History.assignTags_only_tags (h : History) (tags : List Tag) :
    h.assignTags tags = h.map (fun e => { e with tags := e.tagsAmong tags }) ∧
    (h.assignTags tags).assignTags tags = h.assignTags tags ∧
    (∀ tags', Tag.SameByRevision tags tags' → h.assignTags tags' = h.assignTags tags) ∧
    ∀ (shelf : Shelf Entry) (place : Nat), shelf.read? place = some h →
      (shelf.assignTags place tags).2.read? (shelf.assignTags place tags).1 =
        some (h.assignTags tags) ∧
      ((shelf.assignTags place tags).1 = place ↔ tags = []) ∧
      ∀ other l, shelf.read? other = some l → (shelf.assignTags place tags).2.read? other = some l := by
  have hmap (tags : List Tag) :
      h.assignTags tags = h.map fun e => { e with tags := e.tagsAmong tags } :=
    h.assignTags_eq_map tags
  refine ⟨hmap tags, ?_, fun tags' hsame => ?_, fun shelf place hread => ?_⟩
  · rw [assignTags_eq_map (h.assignTags tags), hmap, List.map_map]
    exact List.map_congr_left fun e _ => congrArg e.withTags (e.tagsAmong_withTags tags)
  · rw [hmap, hmap]
    refine List.map_congr_left fun e _ => ?_
    rw [e.tagsAmong_eq, e.tagsAmong_eq, hsame.namesOf_eq]
  · rw [Shelf.assignTags_eq hread]
    by_cases hnil : tags = []
    · subst hnil
      exact ⟨hread, by simp, fun _ _ hl => hl⟩
    · simp only [hnil, if_false, Shelf.read?_add, if_true, iff_false, true_and]
      refine ⟨(shelf.ne_next_of_read? hread).symm, fun other l hl => ?_⟩
      rw [if_neg (shelf.ne_next_of_read? hl), hl]

/-- Two records for one commit around another, an entry that is tagged already, and one whose changeset
has the number of another revision. -/
theorem History.assignTags_only_tags_of_shared_numbers :
    let date : Moment := .utc ⟨2020, 1, 1, 0, 0, 0, 0⟩
    let h : History := [
      { revision := "1.2", author := "a", date, changeset := some "1.40" },
      { revision := "1.1", author := "a", date, changeset := some "1.2", tags := ["old"] },
      { revision := "1.0", author := "a", date, changeset := some "", tags := ["kept"] }]
    let a : Tag := ⟨date, "1.40", ["v2"]⟩
    let b : Tag := ⟨date, "1.2", ["v1"]⟩
    let c : Tag := ⟨date, "1.40", ["lts"]⟩
    let shelf : Shelf Entry := ⟨[h]⟩
    (h.assignTags [a, b, c]).map (·.tags) =
      [["v2".toList, "lts".toList], ["v1".toList], ["kept".toList]] ∧
    h.assignTags [b, a, c] = h.assignTags [a, b, c] ∧
    (shelf.assignTags 0 [a, b, c]).1 ≠ 0 ∧ (shelf.assignTags 0 [a, b, c]).2.read? 0 = some h := by
  intro date h a b c shelf
  obtain ⟨hmap, -, horder, hshelf⟩ := History.assignTags_only_tags h [a, b, c]
  obtain ⟨-, hplace, hkept⟩ := hshelf shelf 0 rfl
  refine ⟨?_, horder [b, a, c] ?_, fun heq => List.cons_ne_nil _ _ (hplace.1 heq), hkept 0 h rfl⟩
  · rw [hmap]
    decide
  · have hne : a.revision ≠ b.revision := by decide
    exact Tag.sameByRevision_swap hne [] [c]

end Annals

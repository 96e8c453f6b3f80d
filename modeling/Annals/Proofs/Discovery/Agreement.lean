import Annals.Proofs.Discovery.Collecting

/-!
# The two searches agree

For what lies in a directory that the search downwards visits, the search upwards looks at that directory
first, then at those on the way up to the root, all of which were visited (`visited_ascent`), and then at
those above the root. So it finds the innermost of the repositories that were collected
(`findRepository_agrees`).
-/

namespace Annals

namespace Path

/-- The directories from the one that names lead to up to the one that they lead from. -/
def ascent (root : Path) (names : List Text) : List Path :=
  (List.range (names.length + 1)).map fun k => root.descend (names.take (names.length - k))

variable {root p dir : Path} {names : List Text}

theorem mem_ascent : dir ∈ root.ascent names ↔ ∃ first, first <+: names ∧ root.descend first = dir := by
  simp only [ascent, List.mem_map, List.mem_range]
  constructor
  · rintro ⟨k, -, rfl⟩
    exact ⟨_, List.take_prefix _ _, rfl⟩
  · rintro ⟨first, hfirst, rfl⟩
    refine ⟨names.length - first.length, by omega, ?_⟩
    rw [Nat.sub_sub_self hfirst.length_le, ← List.prefix_iff_eq_take.mp hfirst]

theorem mem_self_or_parents :
    dir ∈ p :: p.parents ↔ dir.anchor = p.anchor ∧ dir.parts <+: p.parts := by
  rw [List.mem_cons, Registry.mem_parents]
  constructor
  · rintro (rfl | ⟨hanchor, hbelow, -⟩)
    · exact ⟨rfl, List.prefix_refl _⟩
    · exact ⟨hanchor, hbelow⟩
  · rintro ⟨hanchor, hbelow⟩
    by_cases hparts : dir.parts = p.parts
    · obtain ⟨anchor, parts⟩ := dir
      obtain rfl : anchor = p.anchor := hanchor
      obtain rfl : parts = p.parts := hparts
      exact .inl rfl
    · exact .inr ⟨hanchor, hbelow, hparts⟩

theorem mem_ascent_iff {first : List Text} :
    root.descend first ∈ root.ascent names ↔
      root.descend first ∈ root.descend names :: (root.descend names).parents := by
  rw [mem_ascent, mem_self_or_parents]
  simp [descend, List.prefix_append_right_inj]

/-- What comes later on the way up lies above what comes earlier. -/
theorem pairwise_ascent (root : Path) (names : List Text) :
    (root.ascent names).Pairwise fun a b => b ∈ a :: a.parents := by
  refine List.pairwise_map.mpr (List.pairwise_lt_range.imp ?_)
  intro j k hlt
  refine mem_self_or_parents.mpr ⟨rfl, ?_⟩
  refine (List.prefix_append_right_inj root.parts).mpr ?_
  exact List.take_prefix_take_left (by omega)

/-- The directories above an item are those up to the root of a search and those above the root. -/
theorem parents_child (root : Path) (names : List Text) (name : Text) :
    ((root.descend names).child name).parents = root.ascent names ++ root.parents := by
  have hcount : ((root.descend names).child name).parts.length =
      names.length + 1 + root.parts.length := by
    simp [descend, child]
    omega
  have hparts : ((root.descend names).child name).parts = root.parts ++ (names ++ [name]) :=
    List.append_assoc root.parts names [name]
  rw [parents, hcount, hparts, List.range_add, List.map_append, List.map_map]
  refine congrArg₂ (· ++ ·) (List.map_congr_left fun k hk => ?_) (List.map_congr_left fun k hk => ?_)
  · rw [List.mem_range] at hk
    have hlast : names.length + 1 + root.parts.length - 1 - k = root.parts.length + (names.length - k) := by
      omega
    rw [hlast, List.take_length_add_append, List.take_append_of_le_length (Nat.sub_le _ k)]
    rfl
  · rw [List.mem_range] at hk
    have hlast : names.length + 1 + root.parts.length - 1 - (names.length + 1 + k) =
        root.parts.length - 1 - k := by
      omega
    rw [Function.comp_apply, hlast, List.take_append_of_le_length (by omega)]
    rfl

end Path

namespace Registry

section Search

variable {α β ε : Type} {l l' : List α} {f : α → Except ε (Option β)}

theorem findSomeM?_append_of_none (h : ∀ a ∈ l, f a = .ok none) :
    (l ++ l').findSomeM? f = l'.findSomeM? f := by
  induction l with
  | nil => rfl
  | cons a l ih =>
    obtain ⟨ha, hl⟩ := List.forall_mem_cons.mp h
    rw [List.cons_append, List.findSomeM?, ha]
    exact ih hl

theorem findSomeM?_cons_of_some {a : α} {b : β} (h : f a = .ok (some b)) :
    (a :: l).findSomeM? f = .ok (some b) := by
  rw [List.findSomeM?, h]
  rfl

end Search

variable {reg : Registry} {fs : Files} {config : Config} {root dir d : Path} {dirs : List Path}
  {found : List Found} {f : Text × Factory}

theorem not_isBare_of_owns (h : reg.Owns fs dir f) : ¬reg.IsBare fs dir := by
  intro hbare
  have hsome := matching?_eq_some_iff.mpr h
  rw [matching?_eq_none_iff.mpr hbare] at hsome
  exact nomatch Except.ok.inj hsome

theorem Collects.canTell (h : reg.Collects fs config dirs found) : ∀ dir ∈ dirs, reg.CanTell fs dir := by
  induction h with
  | nil => exact nofun
  | owned howns _ ih => exact List.forall_mem_cons.mpr ⟨.inl ⟨_, howns⟩, ih⟩
  | bare hbare _ ih => exact List.forall_mem_cons.mpr ⟨.inr hbare, ih⟩

theorem eq_of_owns {g : Text × Factory} (h : reg.Owns fs dir f) (h' : reg.Owns fs dir g) : f = g :=
  Option.some.inj (Except.ok.inj
    ((matching?_eq_some_iff.mpr h).symm.trans (matching?_eq_some_iff.mpr h')))

theorem Collects.mem_iff (h : reg.Collects fs config dirs found) {r : Found} :
    r ∈ found ↔ ∃ dir ∈ dirs, ∃ f, reg.Owns fs dir f ∧ r = foundBy config dir f := by
  induction h with
  | nil => simp
  | owned howns _ ih =>
    rw [List.mem_cons, ih, List.exists_mem_cons_iff]
    refine or_congr_left ⟨fun hr => ⟨_, howns, hr⟩, ?_⟩
    rintro ⟨g, hg, rfl⟩
    rw [eq_of_owns hg howns]
  | bare hbare _ ih =>
    rw [ih, List.exists_mem_cons_iff, or_iff_right]
    rintro ⟨g, hg, -⟩
    exact not_isBare_of_owns hg hbare

/-- Among directories that can be told about, there is a first repository, or there is none. -/
theorem exists_first (h : ∀ dir ∈ dirs, reg.CanTell fs dir) :
    (∀ dir ∈ dirs, reg.IsBare fs dir) ∨ ∃ earlier dir f later, dirs = earlier ++ dir :: later ∧
      reg.Owns fs dir f ∧ ∀ a ∈ earlier, reg.IsBare fs a := by
  induction dirs with
  | nil => exact .inl nofun
  | cons dir dirs ih =>
    obtain ⟨htell, hrest⟩ := List.forall_mem_cons.mp h
    rcases htell with ⟨f, howns⟩ | hbare
    · exact .inr ⟨[], dir, f, dirs, rfl, howns, nofun⟩
    · rcases ih hrest with hnone | ⟨earlier, first, f, later, rfl, howns, hearlier⟩
      · exact .inl (List.forall_mem_cons.mpr ⟨hbare, hnone⟩)
      · exact .inr ⟨dir :: earlier, first, f, later, rfl, howns, List.forall_mem_cons.mpr ⟨hbare, hearlier⟩⟩

/-- A search that has come to its end has visited the directories on the way to each that it visited. -/
theorem visited_ascent (hvisited : fs.visited root = .ok dirs) (hd : d ∈ dirs) :
    ∃ names, d = root.descend names ∧ ∀ dir ∈ root.ascent names, dir ∈ dirs := by
  unfold Files.visited at hvisited
  split at hvisited
  · next inside _ =>
    obtain rfl := Except.ok.inj hvisited
    obtain ⟨names, hnames, rfl⟩ := List.mem_map.mp hd
    obtain ⟨hmem, hvisit⟩ := List.mem_filter.mp hnames
    refine ⟨names, rfl, fun dir hdir => ?_⟩
    obtain ⟨first, hbelow, rfl⟩ := Path.mem_ascent.mp hdir
    exact List.mem_map_of_mem (List.mem_filter.mpr
      ⟨Listing.mem_visited_of_prefix hbelow hmem, Path.canVisit_of_prefix hbelow hvisit⟩)
  · contradiction
  · obtain rfl := Except.ok.inj hvisited
    contradiction

theorem collects_of_visited (hvisited : fs.visited root = .ok dirs)
    (hfault : (reg.discover fs config root).fault? = none) :
    reg.Collects fs config dirs (reg.discover fs config root).found := by
  have hsearch : reg.discover fs config root = reg.discoverAmong fs config dirs := by
    rw [discover, hvisited]
  obtain ⟨looked, left, hlooked, hcollects, hend, -⟩ := reg.exists_collects fs config dirs
  rw [hsearch] at hfault ⊢
  rw [hlooked, hend.mp hfault, List.append_nil] at hcollects ⊢
  exact hcollects

/-- For an item of a directory that a search downwards has visited, the search upwards finds the innermost
repository that was collected above the item, and if there is none what it finds above the root. It fails
if it cannot be told whether the item is a directory. -/
theorem findRepository_agrees (reg : Registry) (fs : Files) (config : Config) {root d : Path}
    {dirs : List Path} (name : Text) (habsolute : root.isAbsolute = true)
    (hvisited : fs.visited root = .ok dirs) (hfault : (reg.discover fs config root).fault? = none)
    (hd : d ∈ dirs) :
    let collected := (reg.discover fs config root).found
    let found? := reg.findRepository fs config (d.child name)
    (∀ fault, fs.hasDir (d.child name) = .error fault → found? = .error fault) ∧
    (fs.hasDir (d.child name) = .ok false →
      (∃ found ∈ collected, found.repository.root ∈ d :: d.parents ∧
        (∀ other ∈ collected, other.repository.root ∈ d :: d.parents →
          other.repository.root ∈ found.repository.root :: found.repository.root.parents) ∧
        found? = .ok (some found)) ∨
      (∀ found ∈ collected, found.repository.root ∉ d :: d.parents) ∧
        found? = root.parents.findSomeM? (reg.repositoryFor fs config)) := by
  intro collected found?
  have hcollects : reg.Collects fs config dirs collected := collects_of_visited hvisited hfault
  obtain ⟨names, rfl, hascent⟩ := visited_ascent hvisited hd
  have hself : fs.absolute ((root.descend names).child name) = (root.descend names).child name :=
    if_pos habsolute
  refine ⟨fun fault hdir => ?_, fun hdir => ?_⟩
  · simp only [found?, findRepository, candidates, hself, hdir]
    rfl
  have hfound : found? =
      (root.ascent names ++ root.parents).findSomeM? (reg.repositoryFor fs config) := by
    simp only [found?, findRepository, candidates, hself, hdir, Path.parents_child]
    rfl
  have htell : ∀ dir ∈ root.ascent names, reg.CanTell fs dir :=
    fun dir hdir => hcollects.canTell dir (hascent dir hdir)
  have hwithin : ∀ found ∈ collected,
      found.repository.root ∈ root.descend names :: (root.descend names).parents →
        found.repository.root ∈ root.ascent names ∧ ∃ f, reg.Owns fs found.repository.root f := by
    intro found hmem habove
    obtain ⟨dir, hdir, f, howns, rfl⟩ := hcollects.mem_iff.mp hmem
    obtain ⟨first, rfl, -⟩ := visited_ascent hvisited hdir
    exact ⟨Path.mem_ascent_iff.mpr habove, f, howns⟩
  -- all on the way up were visited, so it can be told of each whether it is a repository
  rcases exists_first htell with hnone | ⟨earlier, dir, f, later, hsplit, howns, hearlier⟩
  · refine .inr ⟨fun found hmem habove => ?_, hfound.trans (findSomeM?_append_of_none fun dir hdir => ?_)⟩
    · obtain ⟨hup, f, howns⟩ := hwithin found hmem habove
      exact not_isBare_of_owns howns (hnone _ hup)
    · exact repositoryFor_of_isBare config (hnone dir hdir)
  · have hup : dir ∈ root.ascent names := hsplit ▸ List.mem_append_right earlier List.mem_cons_self
    have hafter : ∀ a ∈ later, a ∈ dir :: dir.parents := by
      have hordered := root.pairwise_ascent names
      rw [hsplit] at hordered
      exact (List.pairwise_cons.mp (List.pairwise_append.mp hordered).2.1).1
    refine .inl ⟨foundBy config dir f, hcollects.mem_iff.mpr ⟨dir, hascent dir hup, f, howns, rfl⟩, ?_, ?_, ?_⟩
    · obtain ⟨first, -, rfl⟩ := Path.mem_ascent.mp hup
      exact Path.mem_ascent_iff.mp hup
    · -- another one that was collected lies further up, since there is none before the first
      intro other hmem habove
      obtain ⟨hother, g, hg⟩ := hwithin other hmem habove
      rw [hsplit] at hother
      rcases List.mem_append.mp hother with hother | hother
      · exact absurd (hearlier _ hother) (not_isBare_of_owns hg)
      · rcases List.mem_cons.mp hother with heq | hother
        · exact heq ▸ List.mem_cons_self
        · exact hafter _ hother
    · rw [hfound, hsplit, List.append_assoc]
      rw [findSomeM?_append_of_none fun a ha => repositoryFor_of_isBare config (hearlier a ha)]
      exact findSomeM?_cons_of_some (repositoryFor_of_owns config howns)

/-- A file in a directory that is no repository. -/
theorem findRepository_agrees_of_markedTree :
    let fs : Files := { top := .dir "r" markedTree .nil }
    let root : Path := .ofText "/r"
    let dirs : List Path := [[], ["a".toList], ["a".toList, "deep".toList], ["b".toList], ["d".toList]].map
      root.descend
    let d := root.descend ["d".toList]
    root.isAbsolute = true ∧ fs.visited root = .ok dirs ∧
      (builtin.discover fs {} root).fault? = none ∧ d ∈ dirs ∧ fs.hasDir (d.child ".bk") = .ok false ∧
      ∃ found ∈ (builtin.discover fs {} root).found, found.repository.root ∈ d :: d.parents ∧
        builtin.findRepository fs {} (d.child ".bk") = .ok (some found) := by
  intro fs root dirs d
  have hroot : fs.item? root = .ok (some (.dir markedTree)) := by decide +kernel
  have hvisited : fs.visited root = .ok dirs := by
    rw [Files.visited_eq hroot, visited_markedTree]
    decide +kernel
  have hfault : (builtin.discover fs {} root).fault? = none := by
    rw [discover, hvisited]
    decide +kernel
  have hd : d ∈ dirs := by decide +kernel
  have hfile : fs.hasDir (d.child ".bk") = .ok false := by decide +kernel
  have habove : ∃ found ∈ (builtin.discover fs {} root).found, found.repository.root ∈ d :: d.parents := by
    rw [discover, hvisited]
    decide +kernel
  refine ⟨rfl, hvisited, hfault, hd, hfile, ?_⟩
  rcases (findRepository_agrees builtin fs {} ".bk" rfl hvisited hfault hd).2 hfile with
    ⟨found, hmem, hroot, -, hfound⟩ | ⟨hnone, -⟩
  · exact ⟨found, hmem, hroot, hfound⟩
  · obtain ⟨found, hmem, hroot⟩ := habove
    exact absurd hroot (hnone found hmem)

/-- A link to a name that is too long is in a repository that is collected, and none is found for it. -/
theorem not_agrees :
    let target : Text := List.replicate 256 'x'
    let fs : Files :=
      { top := .dir "T" (.dir "r" (.dir ".git" .nil (.link "f" target .nil)) .nil) .nil }
    let root : Path := .ofText "/T"
    let d := root.descend ["r".toList]
    (∃ dirs, fs.visited root = .ok dirs ∧ d ∈ dirs) ∧
      fs.top.at? (d.child "f").parts = some (.link target) ∧
      (builtin.discover fs {} root).result = .ok [foundBy {} d (Backend.git.kind, .ofBackend .git)] ∧
      ∀ found?, builtin.findRepository fs {} (d.child "f") ≠ .ok found? := by
  intro target fs root d
  have hfind : builtin.findRepository fs {} (d.child "f") = .error (.tooLong "/T/r/f") := by
    decide +kernel
  refine ⟨⟨[root, d], by decide +kernel, by decide +kernel⟩, by decide +kernel, by decide +kernel, ?_⟩
  intro found? h
  exact nomatch hfind.symm.trans h

end Registry

end Annals

import Annals.Discovery.Walk
import Annals.Proofs.Files.Following

/-!
# The innermost repository

The search upwards takes the names of a path away one by one, so that behind two dots it looks at
directories that do not hold the path. In a tree without links it finds the innermost repository that
holds the path exactly if the directory that it finds is the path or above it, which is so for every path
without two dots (`findRepository_innermost`).
-/

namespace Annals

/-! ## Markers -/

open Files

/-- Whether the path of a marker can be looked up, as far as its names go. -/
structure Marker.IsSound (m : Marker) : Prop where
  split : m.path.IsSplit
  nul : ∀ name ∈ m.path.parts, '\x00' ∉ name
  short : ∀ name ∈ m.path.parts, exceeds maxNameBytes name = false

/-- Whether a marker is in a directory of a tree without links. -/
def Marker.isIn (m : Marker) (top : Listing) (dir : List Text) : Bool :=
  let found? := reached top (if m.path.isAbsolute then [] else dir) m.path.parts
  if m.isDir then Files.isDir found? else found?.isSome

variable {fs : Files}

/-- A marker is seen from any spelling of a directory. -/
theorem Marker.isAt_eq {m : Marker} (hm : m.IsSound) (htop : fs.top.isLinkFree = true) {dir : Path}
    {item : Item} (hdir : fs.Leads dir item)
    (hshort : exceeds maxPathBytes (dir.join m.path).toText = false) :
    m.isAt fs dir = .ok (m.isIn fs.top (fold [] dir.parts)) := by
  have habsolute : (dir.join m.path).isAbsolute = true := by
    unfold Path.join
    split
    · assumption
    · exact hdir.absolute
  have hsplit : (dir.join m.path).IsSplit := hdir.split.join hm.split
  have hnul : '\x00' ∉ (dir.join m.path).toText := by
    rw [hsplit.notMem_toText (by decide) (by decide), Path.join]
    split
    · exact hm.nul
    · exact List.forall_mem_append.mpr ⟨hdir.nul, hm.nul⟩
  have hstart : fs.start (dir.join m.path) = [] := start_of_isAbsolute habsolute
  have hfollow : follow fs.top [] (dir.join m.path).parts =
      follow fs.top (if m.path.isAbsolute then [] else fold [] dir.parts) m.path.parts := by
    unfold Path.join
    split
    · rfl
    · exact follow_append _ hdir.follow
  have hitem : fs.item? (dir.join m.path) =
      .ok (reached fs.top (if m.path.isAbsolute then [] else fold [] dir.parts) m.path.parts) := by
    rw [item?_eq htop hsplit hnul hshort ⟨fs.top, by rw [hstart]; rfl⟩, reached, reached, hstart,
      hfollow]
    rw [hstart, hfollow]
    exact follow_ne_tooLong hm.short _
  rw [isAt, isIn, hasDir_eq, has_eq, hitem]
  split <;> rfl

namespace Registry

variable {reg : Registry}

/-- The first backend whose marker is in a directory of a tree without links, with the kind that it is
registered under. -/
def owner? (reg : Registry) (top : Listing) (dir : List Text) : Option (Text × Factory) :=
  reg.find? fun f => f.2.marker.isIn top dir

/-- Whether all that is looked at from a path upwards can be looked up: the path, and the markers seen
from it and from its parents. -/
structure CanLook (reg : Registry) (path : Path) : Prop where
  self : exceeds maxPathBytes path.toText = false
  sound : ∀ f ∈ reg, f.2.marker.IsSound
  short : ∀ f ∈ reg, ∀ dir ∈ path :: path.parents,
    exceeds maxPathBytes (dir.join f.2.marker.path).toText = false

theorem findM?_of_ok {α ε : Type} {l : List α} {f : α → Except ε Bool} {g : α → Bool}
    (h : ∀ a ∈ l, f a = .ok (g a)) : l.findM? f = .ok (l.find? g) := by
  induction l with
  | nil => rfl
  | cons a l ih =>
    obtain ⟨ha, hl⟩ := List.forall_mem_cons.mp h
    rw [List.findM?, ha, List.find?_cons]
    cases g a with
    | true => rfl
    | false => exact ih hl

theorem findSomeM?_of_ok {α β ε : Type} {l : List α} {f : α → Except ε (Option β)} {g : α → Option β}
    (h : ∀ a ∈ l, f a = .ok (g a)) : l.findSomeM? f = .ok (l.findSome? g) := by
  induction l with
  | nil => rfl
  | cons a l ih =>
    obtain ⟨ha, hl⟩ := List.forall_mem_cons.mp h
    rw [List.findSomeM?, ha, List.findSome?_cons]
    cases g a with
    | some b => rfl
    | none => exact ih hl

/-- The repository at the top of a directory of a tree without links. -/
def found? (reg : Registry) (top : Listing) (config : Config) (dir : Path) : Option Found :=
  (reg.owner? top (fold [] dir.parts)).map fun f => ⟨f.2.kind, ⟨f.2.backend, dir, config⟩, f.1⟩

theorem repositoryFor_eq (htop : fs.top.isLinkFree = true) (config : Config) {dir : Path} {item : Item}
    (hdir : fs.Leads dir item) (hsound : ∀ f ∈ reg, f.2.marker.IsSound)
    (hshort : ∀ f ∈ reg, exceeds maxPathBytes (dir.join f.2.marker.path).toText = false) :
    reg.repositoryFor fs config dir = .ok (reg.found? fs.top config dir) := by
  have hmatching : reg.matching? fs dir = .ok (reg.owner? fs.top (fold [] dir.parts)) :=
    findM?_of_ok fun f hf => Marker.isAt_eq (hsound f hf) htop hdir (hshort f hf)
  rw [repositoryFor, hmatching, found?]
  rcases reg.owner? fs.top (fold [] dir.parts) with _ | ⟨kind, factory⟩ <;> rfl

/-! ## The search upwards -/

theorem mem_parents {p dir : Path} :
    dir ∈ p.parents ↔ dir.anchor = p.anchor ∧ dir.parts <+: p.parts ∧ dir.parts ≠ p.parts := by
  simp only [Path.parents, List.mem_map, List.mem_range]
  constructor
  · rintro ⟨k, hk, rfl⟩
    refine ⟨rfl, List.take_prefix _ _, fun h => ?_⟩
    have hlength := congrArg List.length h
    simp only [List.length_take] at hlength
    omega
  · rintro ⟨hanchor, hbelow, hne⟩
    have hlength : dir.parts.length < p.parts.length :=
      lt_of_le_of_ne hbelow.length_le fun h => hne (hbelow.eq_of_length h)
    refine ⟨p.parts.length - 1 - dir.parts.length, by omega, ?_⟩
    have hcount : p.parts.length - 1 - (p.parts.length - 1 - dir.parts.length) = dir.parts.length := by
      omega
    rw [hcount, ← List.prefix_iff_eq_take.mp hbelow, ← hanchor]

theorem pairwise_parents (p : Path) :
    p.parents.Pairwise fun a b => b.parts.length < a.parts.length := by
  rw [Path.parents, List.pairwise_map]
  refine List.pairwise_lt_range.imp_of_mem fun {j k} hj hk hlt => ?_
  rw [List.mem_range] at hj hk
  simp only [List.length_take]
  omega

/-- The directories that are looked at for a path, when it is known whether it is a directory itself. -/
def above (fs : Files) (start : Path) : List Path :=
  (if isDir (fs.top.at? (fold [] start.parts)) then [start] else []) ++ start.parents

theorem mem_above {start dir : Path} : dir ∈ above fs start ↔
    dir.anchor = start.anchor ∧ dir.parts <+: start.parts ∧
      (dir.parts = start.parts → isDir (fs.top.at? (fold [] start.parts)) = true) := by
  rw [above, List.mem_append, mem_parents]
  constructor
  · rintro (h | ⟨hanchor, hbelow, hne⟩)
    · split at h
      · next hdir =>
        obtain rfl := List.mem_singleton.mp h
        exact ⟨rfl, List.prefix_refl _, fun _ => hdir⟩
      · contradiction
    · exact ⟨hanchor, hbelow, fun h => absurd h hne⟩
  · rintro ⟨hanchor, hbelow, hdir⟩
    by_cases hparts : dir.parts = start.parts
    · have hself : dir = start := by
        cases dir
        cases start
        simp_all
      exact .inl (by simp [hdir hparts, hself])
    · exact .inr ⟨hanchor, hbelow, hparts⟩

theorem mem_of_mem_above {start dir : Path} (h : dir ∈ above fs start) :
    dir ∈ start :: start.parents := by
  rcases List.mem_append.mp h with h | h
  · split at h
    · exact List.mem_singleton.mp h ▸ List.mem_cons_self
    · contradiction
  · exact List.mem_cons_of_mem start h

theorem pairwise_above (fs : Files) (start : Path) :
    (above fs start).Pairwise fun a b => b.parts.length < a.parts.length := by
  rw [above, List.pairwise_append]
  refine ⟨by split <;> simp, pairwise_parents start, fun a ha b hb => ?_⟩
  split at ha
  · obtain rfl := List.mem_singleton.mp ha
    obtain ⟨-, hbelow, hne⟩ := mem_parents.mp hb
    exact lt_of_le_of_ne hbelow.length_le fun h => hne (hbelow.eq_of_length h)
  · contradiction

theorem leads_of_mem_above {start dir : Path} {item : Item} (h : fs.Leads start item)
    (hdir : dir ∈ above fs start) : ∃ inside, fs.Leads dir (.dir inside) := by
  obtain ⟨hanchor, hbelow, hself⟩ := mem_above.mp hdir
  obtain ⟨item', hleads, hproper⟩ := h.take hbelow
  rw [← hanchor] at hleads
  by_cases hparts : dir.parts = start.parts
  · have hisDir := hself hparts
    rw [← hparts, hleads.item] at hisDir
    obtain ⟨inside, hinside⟩ := isDir_iff.mp hisDir
    exact ⟨inside, Option.some.inj hinside ▸ hleads⟩
  · obtain ⟨inside, rfl⟩ := hproper hparts
    exact ⟨inside, hleads⟩

theorem candidates_eq (htop : fs.top.isLinkFree = true) {file : Path} {item : Item}
    (h : fs.Leads (fs.absolute file) item)
    (hshort : exceeds maxPathBytes (fs.absolute file).toText = false) :
    candidates fs file = .ok (above fs (fs.absolute file)) := by
  have hdir : fs.hasDir (fs.absolute file) =
      .ok (isDir (fs.top.at? (fold [] (fs.absolute file).parts))) := by
    rw [hasDir_eq, h.item?_eq htop hshort, h.item]
    rfl
  rw [candidates, hdir, above]
  rfl

theorem findRepository_eq (htop : fs.top.isLinkFree = true) (config : Config) {file : Path} {item : Item}
    (h : fs.Leads (fs.absolute file) item) (hlook : reg.CanLook (fs.absolute file)) :
    reg.findRepository fs config file =
      .ok ((above fs (fs.absolute file)).findSome? (reg.found? fs.top config)) := by
  rw [findRepository, candidates_eq htop h hlook.self]
  refine findSomeM?_of_ok fun dir hdir => ?_
  obtain ⟨inside, hleads⟩ := leads_of_mem_above h hdir
  exact repositoryFor_eq htop config hleads hlook.sound fun f hf =>
    hlook.short f hf dir (mem_of_mem_above hdir)

/-! ## The innermost one -/

/-- Whether a directory holds a path, or is the path, and has the marker of a backend in it. -/
def Holds (reg : Registry) (top : Listing) (path dir : List Text) : Prop :=
  dir <+: path ∧ isDir (top.at? dir) = true ∧ (reg.owner? top dir).isSome = true

/-- Whether a search has found the innermost repository that holds a path, with the first backend whose
marker is there, and none only if there is none. -/
def FindsInnermost (reg : Registry) (top : Listing) (path : List Text) (found? : Option Found) : Prop :=
  (found?.isSome = true ↔ ∃ dir, reg.Holds top path dir) ∧
    ∀ found ∈ found?, reg.Holds top path (fold [] found.repository.root.parts) ∧
      (∀ dir, reg.Holds top path dir → dir <+: fold [] found.repository.root.parts) ∧
      (reg.owner? top (fold [] found.repository.root.parts)).map (fun f => f.2.kind) = some found.kind

/-- A directory above where a path leads is above where the first names of it lead, or it is looked at
before these. -/
theorem exists_above {start : Path} {first : List Text} (hfirst : first <+: start.parts) {dir : List Text}
    (hbelow : dir <+: fold [] start.parts) (hdir : isDir (fs.top.at? dir) = true) :
    dir <+: fold [] first ∨
      ∃ q ∈ above fs start, first.length < q.parts.length ∧ fold [] q.parts = dir := by
  obtain ⟨rest, hrest⟩ := hfirst
  rw [← hrest, fold_append] at hbelow
  rcases exists_fold_eq hbelow with h | ⟨earlier, later, rfl, hne, hfold⟩
  · exact .inl h
  have hdir' : fold [] (first ++ earlier) = dir := by rw [fold_append, hfold]
  refine .inr ⟨⟨start.anchor, first ++ earlier⟩, mem_above.mpr ⟨rfl, ⟨later, ?_⟩, fun h => ?_⟩, ?_, hdir'⟩
  · rw [List.append_assoc, hrest]
  · rw [← h, hdir', hdir]
  · rw [List.length_append]
    exact Nat.lt_add_of_pos_right (List.length_pos_of_ne_nil hne)

theorem not_holds_of_findSome?_eq_none {start : Path} {config : Config}
    (h : (above fs start).findSome? (reg.found? fs.top config) = none) (dir : List Text) :
    ¬ reg.Holds fs.top (fold [] start.parts) dir := by
  rintro ⟨hbelow, hdir, howner⟩
  have hlooked : ∃ q ∈ above fs start, fold [] q.parts = dir := by
    rcases exists_above List.nil_prefix hbelow hdir with htop | ⟨q, hq, -, hfold⟩
    · -- the top of the tree is looked at last
      obtain rfl : dir = [] := List.prefix_nil.mp htop
      refine ⟨⟨start.anchor, []⟩, mem_above.mpr ⟨rfl, List.nil_prefix, fun h => ?_⟩, rfl⟩
      rw [← h]
      exact hdir
    · exact ⟨q, hq, hfold⟩
  obtain ⟨q, hq, rfl⟩ := hlooked
  have hnone := List.findSome?_eq_none_iff.mp h q hq
  rw [found?, Option.map_eq_none_iff] at hnone
  rw [hnone] at howner
  contradiction

/-- What is found is the first repository among the directories looked at. -/
theorem of_findSome?_eq_some {start : Path} {config : Config} {found : Found}
    (h : (above fs start).findSome? (reg.found? fs.top config) = some found) :
    found.repository.root ∈ above fs start ∧
      (reg.owner? fs.top (fold [] found.repository.root.parts)).map (fun f => f.2.kind) =
        some found.kind ∧
      ∀ q ∈ above fs start, found.repository.root.parts.length < q.parts.length →
        reg.owner? fs.top (fold [] q.parts) = none := by
  obtain ⟨before, root, behind, habove, hfound, hnone⟩ := List.findSome?_eq_some_iff.mp h
  obtain ⟨f, howner, rfl⟩ := Option.map_eq_some_iff.mp hfound
  refine ⟨by simp [habove], by simp [howner], fun q hq hlength => ?_⟩
  have hpairwise := pairwise_above fs start
  rw [habove] at hpairwise hq
  rcases List.mem_append.mp hq with hq | hq
  · simpa [found?] using hnone q hq
  · -- what comes from the root on has no more names than it
    rcases List.mem_cons.mp hq with rfl | hq
    · exact absurd hlength (lt_irrefl _)
    · have hrest := (List.pairwise_cons.mp (List.pairwise_append.mp hpairwise).2.1).1 q hq
      exact absurd hlength (lt_asymm hrest)

/-- Every repository that holds a path holds the one that is found for it. -/
theorem prefix_root_of_holds {start : Path} {config : Config} {found : Found}
    (h : (above fs start).findSome? (reg.found? fs.top config) = some found) {dir : List Text}
    (hholds : reg.Holds fs.top (fold [] start.parts) dir) :
    dir <+: fold [] found.repository.root.parts := by
  obtain ⟨hbelow, hdir, howner⟩ := hholds
  obtain ⟨hroot, -, hnone⟩ := of_findSome?_eq_some h
  rcases exists_above (mem_above.mp hroot).2.1 hbelow hdir with h | ⟨q, hq, hlength, rfl⟩
  · exact h
  · rw [hnone q hq hlength] at howner
    contradiction

/-- A search finds the innermost repository exactly if what it finds holds the path. -/
theorem findsInnermost_iff (reg : Registry) (config : Config) {start : Path} {item : Item}
    (hstart : fs.Leads start item) :
    let found? := (above fs start).findSome? (reg.found? fs.top config)
    reg.FindsInnermost fs.top (fold [] start.parts) found? ↔
      ∀ found ∈ found?, fold [] found.repository.root.parts <+: fold [] start.parts := by
  intro found?
  constructor
  · rintro ⟨-, hfound⟩ found hmem
    exact (hfound found hmem).1.1
  · intro hbelow
    have hholds : ∀ found ∈ found?,
        reg.Holds fs.top (fold [] start.parts) (fold [] found.repository.root.parts) := by
      intro found hmem
      obtain ⟨hroot, hkind, -⟩ := of_findSome?_eq_some hmem
      obtain ⟨inside, hleads⟩ := leads_of_mem_above hstart hroot
      obtain ⟨f, howner, -⟩ := Option.map_eq_some_iff.mp hkind
      exact ⟨hbelow found hmem, by rw [hleads.item]; rfl, by rw [howner]; rfl⟩
    refine ⟨⟨fun hsome => ?_, fun ⟨dir, hdir⟩ => ?_⟩, fun found hmem => ⟨hholds found hmem, ?_, ?_⟩⟩
    · obtain ⟨found, hmem⟩ := Option.isSome_iff_exists.mp hsome
      exact ⟨_, hholds found hmem⟩
    · by_contra hnone
      exact not_holds_of_findSome?_eq_none (Option.not_isSome_iff_eq_none.mp hnone) dir hdir
    · exact fun dir hdir => prefix_root_of_holds hmem hdir
    · exact (of_findSome?_eq_some hmem).2.1

/-- In a tree without links, the search upwards finds the innermost repository that holds a path exactly
if the directory that it finds is the path or above it, and always for a path without two dots. -/
theorem findRepository_innermost (reg : Registry) (fs : Files) (config : Config) (t : Text)
    (hfs : fs.IsPlain) (hexists : fs.has (.ofText t) = .ok true)
    (hlook : reg.CanLook (fs.absolute (.ofText t))) :
    ∃ found?, reg.findRepository fs config (.ofText t) = .ok found? ∧
      (reg.FindsInnermost fs.top (fs.folded (.ofText t)) found? ↔
        ∀ found ∈ found?, fold [] found.repository.root.parts <+: fs.folded (.ofText t)) ∧
      (upDir ∉ (Path.ofText t).parts →
        reg.FindsInnermost fs.top (fs.folded (.ofText t)) found?) := by
  obtain ⟨item, hitem⟩ := item?_of_has hexists
  have hleads := hfs.leads_absolute (Path.isSplit_ofText t) hitem
  have hiff := findsInnermost_iff reg config hleads
  refine ⟨_, findRepository_eq hfs.linkFree config hleads hlook, hiff, fun hdots => hiff.mpr ?_⟩
  intro found hmem
  obtain ⟨rest, hrest⟩ := (mem_above.mp (of_findSome?_eq_some hmem).1).2.1
  rw [← hrest, fold_append]
  refine prefix_fold fun hup => hfs.notMem_absolute hdots ?_
  rw [← hrest]
  exact List.mem_append_right _ hup

/-- A tree seen from its top: a Git repository with a BitKeeper repository in it, and a directory beside
them. -/
def nestedTree : Files where
  top := .dir "a" (.dir ".git" .nil (.dir "lib" (.dir ".bk" .nil (.file "m" [] .nil)) .nil))
    (.dir "b" (.file "f" [] .nil) .nil)

theorem isPlain_nestedTree : nestedTree.IsPlain :=
  ⟨rfl, rfl, ⟨List.forall_mem_singleton.mpr rfl, nofun, nofun⟩, nofun, by decide +kernel⟩

theorem isSound_builtin : ∀ f ∈ builtin, f.2.marker.IsSound :=
  List.forall_mem_cons.mpr
    ⟨⟨Path.isSplit_ofText ".bk", by decide, by decide⟩, List.forall_mem_singleton.mpr
      ⟨Path.isSplit_ofText ".git", by decide, by decide⟩⟩

/-- Two dots do no harm behind a directory that is not in another repository. -/
theorem findRepository_innermost_of_nestedTree :
    let path : Path := .ofText "b/../a/lib/m"
    nestedTree.IsPlain ∧ nestedTree.has path = .ok true ∧ builtin.CanLook (nestedTree.absolute path) ∧
      ∃ found, builtin.findRepository nestedTree {} path = .ok (some found) ∧
        found.kind = Backend.bitkeeper.kind ∧
        builtin.FindsInnermost nestedTree.top ["a", "lib", "m"] (some found) := by
  intro path
  have hexists : nestedTree.has path = .ok true := by decide +kernel
  have hlook : builtin.CanLook (nestedTree.absolute path) :=
    ⟨by decide +kernel, isSound_builtin, by decide +kernel⟩
  have hpath : nestedTree.folded path = ["a", "lib", "m"] := by decide +kernel
  let lib : Found := ⟨"bitkeeper", ⟨.bitkeeper, ⟨"/", ["b", "..", "a", "lib"]⟩, {}⟩, "bitkeeper"⟩
  have hrun : builtin.findRepository nestedTree {} path = .ok (some lib) := by decide +kernel
  obtain ⟨found?, hfound, hiff, -⟩ :=
    findRepository_innermost builtin nestedTree {} "b/../a/lib/m" isPlain_nestedTree hexists hlook
  obtain rfl : found? = some lib := Except.ok.inj (hfound.symm.trans hrun)
  rw [hpath] at hiff
  refine ⟨isPlain_nestedTree, hexists, hlook, lib, hrun, rfl, hiff.mpr fun found hmem => ?_⟩
  obtain rfl : lib = found := Option.some.inj hmem
  decide

/-- Behind two dots, a repository is found that does not hold the path. -/
theorem not_findsInnermost :
    nestedTree.IsPlain ∧ nestedTree.has (.ofText "a/../b/f") = .ok true ∧
      nestedTree.folded (.ofText "a/../b/f") = ["b", "f"] ∧
      ∃ found?, builtin.findRepository nestedTree {} (.ofText "a/../b/f") = .ok found? ∧
        ¬ builtin.FindsInnermost nestedTree.top ["b", "f"] found? := by
  refine ⟨isPlain_nestedTree, by decide +kernel, by decide +kernel,
    some ⟨"git", ⟨.git, ⟨"/", ["a"]⟩, {}⟩, "git"⟩, by decide +kernel, fun h => ?_⟩
  exact absurd (h.2 _ rfl).1.1 (by decide)

end Registry

end Annals

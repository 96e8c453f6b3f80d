import Annals.Cli.Program
import Annals.Proofs.Discovery.Innermost
import Annals.Proofs.Discovery.Visiting
import Annals.Proofs.Repository.Session

/-!
# What a search collects

A directory is a repository of the first registered backend whose marker is there (`Registry.Owns`), and of
none if no marker is (`IsBare`). A search downwards takes one directory that it visits after the other
(`Collects`), up to the first in which a marker cannot be looked for (`discover_collects`).
-/

namespace Annals

open Files (hasDir_eq has_eq isDir_iff)

variable {fs : Files} {dir : Path}

namespace Marker

variable {m : Marker}

/-- Whether the path of a marker leads to something, to a directory if the marker is one. -/
def IsPresent (m : Marker) (fs : Files) (dir : Path) : Prop :=
  ∃ item, fs.item? (dir.join m.path) = .ok (some item) ∧ (m.isDir = true → ∃ inside, item = .dir inside)

/-- Whether the path of a marker can be looked up and does not lead to the marker. -/
def IsAbsent (m : Marker) (fs : Files) (dir : Path) : Prop :=
  ∃ item?, fs.item? (dir.join m.path) = .ok item? ∧
    ∀ item ∈ item?, m.isDir = true ∧ ∀ inside, item ≠ .dir inside

theorem isAt_eq_true_iff : m.isAt fs dir = .ok true ↔ m.IsPresent fs dir := by
  rw [isAt, IsPresent, hasDir_eq, has_eq]
  rcases fs.item? (dir.join m.path) with fault | item?
  · cases m.isDir <;> simp [Except.map]
  · cases m.isDir <;> simp [Except.map, isDir_iff, Option.isSome_iff_exists]

theorem isAt_eq_false_iff : m.isAt fs dir = .ok false ↔ m.IsAbsent fs dir := by
  rw [isAt, IsAbsent, hasDir_eq, has_eq]
  rcases fs.item? (dir.join m.path) with fault | item?
  · cases m.isDir <;> simp [Except.map]
  · cases m.isDir
    · simp [Except.map, Option.eq_none_iff_forall_ne_some]
    · have hnot : Files.isDir item? = false ↔ ∀ inside, item? ≠ some (.dir inside) := by
        rw [Bool.eq_false_iff, Ne, isDir_iff, not_exists]
      simp [Except.map, hnot]
      grind

end Marker

namespace Registry

section Search

variable {α β ε : Type} {l : List α} {f : α → Except ε Bool}

theorem findM?_cons (a : α) (l : List α) : (a :: l).findM? f =
    match f a with
    | .error e => .error e
    | .ok true => .ok (some a)
    | .ok false => l.findM? f := by
  rw [List.findM?]
  rcases f a with e | (_ | _) <;> rfl

theorem findM?_eq_some_iff {a : α} : l.findM? f = .ok (some a) ↔
    ∃ earlier later, l = earlier ++ a :: later ∧ f a = .ok true ∧ ∀ b ∈ earlier, f b = .ok false := by
  constructor
  · intro h
    induction l with
    | nil => exact nomatch h
    | cons b l ih =>
      rw [findM?_cons] at h
      split at h
      · contradiction
      · next hb =>
        obtain rfl : b = a := Option.some.inj (Except.ok.inj h)
        exact ⟨[], l, rfl, hb, nofun⟩
      · next hb =>
        obtain ⟨earlier, later, rfl, ha, hearlier⟩ := ih h
        exact ⟨b :: earlier, later, rfl, ha, List.forall_mem_cons.mpr ⟨hb, hearlier⟩⟩
  · rintro ⟨earlier, later, rfl, ha, hearlier⟩
    induction earlier with
    | nil => rw [List.nil_append, findM?_cons, ha]
    | cons b earlier ih =>
      obtain ⟨hb, hrest⟩ := List.forall_mem_cons.mp hearlier
      rw [List.cons_append, findM?_cons, hb]
      exact ih hrest

theorem findM?_eq_none_iff : l.findM? f = .ok none ↔ ∀ a ∈ l, f a = .ok false := by
  induction l with
  | nil => exact iff_of_true rfl nofun
  | cons a l ih =>
    rw [findM?_cons, List.forall_mem_cons, ← ih]
    rcases f a with e | (_ | _) <;> simp

end Search

variable {reg : Registry} {config : Config} {f : Text × Factory}

/-- Whether a backend is the first whose marker is in a directory. -/
def Owns (reg : Registry) (fs : Files) (dir : Path) (f : Text × Factory) : Prop :=
  ∃ earlier later, reg = earlier ++ f :: later ∧ f.2.marker.IsPresent fs dir ∧
    ∀ g ∈ earlier, g.2.marker.IsAbsent fs dir

def IsBare (reg : Registry) (fs : Files) (dir : Path) : Prop := ∀ f ∈ reg, f.2.marker.IsAbsent fs dir

/-- Whether it can be told whether a directory is a repository. -/
def CanTell (reg : Registry) (fs : Files) (dir : Path) : Prop := (∃ f, reg.Owns fs dir f) ∨ reg.IsBare fs dir

/-- The repository of a backend in a directory. -/
def foundBy (config : Config) (dir : Path) (f : Text × Factory) : Found :=
  ⟨f.2.kind, ⟨f.2.backend, dir, config⟩, f.1⟩

theorem matching?_eq_some_iff : reg.matching? fs dir = .ok (some f) ↔ reg.Owns fs dir f := by
  simp only [matching?, findM?_eq_some_iff, Marker.isAt_eq_true_iff, Marker.isAt_eq_false_iff, Owns]

theorem matching?_eq_none_iff : reg.matching? fs dir = .ok none ↔ reg.IsBare fs dir := by
  simp only [matching?, findM?_eq_none_iff, Marker.isAt_eq_false_iff, IsBare]

theorem repositoryFor_of_owns (config : Config) (h : reg.Owns fs dir f) :
    reg.repositoryFor fs config dir = .ok (some (foundBy config dir f)) := by
  rw [repositoryFor, matching?_eq_some_iff.mpr h]
  rfl

theorem repositoryFor_of_isBare (config : Config) (h : reg.IsBare fs dir) :
    reg.repositoryFor fs config dir = .ok none := by
  rw [repositoryFor, matching?_eq_none_iff.mpr h]
  rfl

theorem repositoryFor_of_not_canTell (config : Config) (h : ¬reg.CanTell fs dir) :
    ∃ fault, reg.repositoryFor fs config dir = .error fault := by
  rw [repositoryFor]
  rcases hmatching : reg.matching? fs dir with fault | (_ | f)
  · exact ⟨fault, rfl⟩
  · exact absurd (.inr (matching?_eq_none_iff.mp hmatching)) h
  · exact absurd (.inl ⟨f, matching?_eq_some_iff.mp hmatching⟩) h

/-- Of some directories one after the other, the repositories that are collected. -/
inductive Collects (reg : Registry) (fs : Files) (config : Config) : List Path → List Found → Prop
  | nil : Collects reg fs config [] []
  | owned {dir : Path} {dirs : List Path} {f : Text × Factory} {found : List Found} :
    reg.Owns fs dir f → Collects reg fs config dirs found →
      Collects reg fs config (dir :: dirs) (foundBy config dir f :: found)
  | bare {dir : Path} {dirs : List Path} {found : List Found} :
    reg.IsBare fs dir → Collects reg fs config dirs found → Collects reg fs config (dir :: dirs) found

/-- What is collected stands in the order of the directories. -/
theorem Collects.roots {dirs : List Path} {found : List Found} (h : reg.Collects fs config dirs found) :
    (found.map (·.repository.root)).Sublist dirs := by
  induction h with
  | nil => exact .slnil
  | owned _ _ ih => exact .cons_cons _ ih
  | bare _ _ ih => exact .cons _ ih

/-- A search collects the repositories of the directories up to the first that it cannot tell about. -/
theorem exists_collects (reg : Registry) (fs : Files) (config : Config) (dirs : List Path) :
    let search := reg.discoverAmong fs config dirs
    ∃ looked left, dirs = looked ++ left ∧ reg.Collects fs config looked search.found ∧
      (search.fault? = none ↔ left = []) ∧ ∀ dir ∈ left.head?, ¬reg.CanTell fs dir := by
  intro search
  induction dirs with
  | nil => exact ⟨[], [], rfl, .nil, by simp [search, discoverAmong], nofun⟩
  | cons dir dirs ih =>
    by_cases htell : reg.CanTell fs dir
    · obtain ⟨looked, left, rfl, hcollects, hfault, hleft⟩ := ih
      rcases htell with ⟨f, howns⟩ | hbare
      · simp only [search, discoverAmong, repositoryFor_of_owns config howns]
        exact ⟨dir :: looked, left, rfl, .owned howns hcollects, hfault, hleft⟩
      · simp only [search, discoverAmong, repositoryFor_of_isBare config hbare]
        exact ⟨dir :: looked, left, rfl, .bare hbare hcollects, hfault, hleft⟩
    · -- the search ends here, and this directory is the first that is left
      obtain ⟨fault, hfault⟩ := repositoryFor_of_not_canTell config htell
      simp only [search, discoverAmong, hfault]
      exact ⟨[], dir :: dirs, rfl, .nil, by simp, by simpa using htell⟩

/-! ## Searches -/

/-- Whoever listens to a search is told of what it finds, one after the other. -/
theorem discoverAmongTelling_eq {σ : Type} (reg : Registry) (fs : Files) (config : Config)
    (onFound : σ → Found → σ) (told : σ) (dirs : List Path) :
    reg.discoverAmongTelling fs config onFound told dirs =
      ((reg.discoverAmong fs config dirs).found.foldl onFound told, reg.discoverAmong fs config dirs) := by
  induction dirs generalizing told with
  | nil => rfl
  | cons dir dirs ih =>
    rw [discoverAmongTelling, discoverAmong]
    rcases reg.repositoryFor fs config dir with fault | (_ | found)
    · rfl
    · exact ih told
    · simp only [ih (onFound told found)]
      rfl

theorem discoverTelling_eq {σ : Type} (reg : Registry) (fs : Files) (config : Config) (root : Path)
    (onFound : σ → Found → σ) (told : σ) :
    reg.discoverTelling fs config root onFound told =
      ((reg.discover fs config root).found.foldl onFound told, reg.discover fs config root) := by
  rw [discoverTelling, discover]
  rcases fs.visited root with fault | dirs
  · rfl
  · exact discoverAmongTelling_eq reg fs config onFound told dirs

/-- A search of the program runs nothing. -/
theorem runs_discoveryReport (w : World) (config : Config) (root : Path) (json : Bool) (s : Session) :
    ((Cli.discoveryReport w config root json).runOn s).2.runs = s.runs := by
  rw [Cli.discoveryReport, Work.runOn_bind_of_ok (Work.runOn_note _ _)]
  rcases (builtin.discover w.files config root).result with fault | found
  · rfl
  · rw [Work.runOn_lookUp_bind_of_ok rfl]
    split
    · rfl
    · split <;> rfl

/-- What comes later in an order of names holds nothing that comes earlier. -/
theorem not_prefix_of_lt {first second : List Text} (h : first < second) : ¬second <+: first := by
  rintro ⟨rest, rfl⟩
  exact List.le_append_left h

theorem owns_builtin_iff : builtin.Owns fs dir f ↔
    f = (Backend.bitkeeper.kind, .ofBackend .bitkeeper) ∧ fs.hasDir (dir.child ".bk") = .ok true ∨
    f = (Backend.git.kind, .ofBackend .git) ∧ fs.hasDir (dir.child ".bk") = .ok false ∧
      fs.has (dir.child ".git") = .ok true := by
  have hbitkeeper : (Factory.ofBackend .bitkeeper).marker.isAt fs dir = fs.hasDir (dir.child ".bk") := rfl
  have hgit : (Factory.ofBackend .git).marker.isAt fs dir = fs.has (dir.child ".git") := rfl
  rw [← matching?_eq_some_iff, matching?, builtin, findM?_cons, findM?_cons, hbitkeeper, hgit]
  rcases fs.hasDir (dir.child ".bk") with fault | (_ | _)
  · simp
  · rcases fs.has (dir.child ".git") with fault | (_ | _)
    · simp
    · exact iff_of_false (fun h => nomatch Except.ok.inj h) (by simp)
    · simp [eq_comm]
  · simp [eq_comm]

/-- A search visits each directory that is reached from its root through directories alone, by names that
are not those of a tool's own and a path that is not too long, in the order of the names. It collects the
repository of the first backend whose marker is there, up to the first directory that it cannot tell
about. -/
theorem discover_collects (reg : Registry) (fs : Files) (config : Config) (root : Path)
    {inside : Listing} (hroot : fs.item? root = .ok (some (.dir inside)))
    (hdistinct : inside.isDistinct = true) :
    let visited := inside.visited.filter root.canVisit
    let search := reg.discover fs config root
    (visited.Pairwise (· < ·) ∧ root.canVisit [] = true ∧
      ∀ names, names ∈ visited ↔ (∃ below, inside.at? names = some (.dir below)) ∧
        (∀ name ∈ names, name ∉ skippedNames) ∧ root.canVisit names = true) ∧
    (∃ looked left, visited.map root.descend = looked ++ left ∧
      reg.Collects fs config looked search.found ∧ (search.fault? = none ↔ left = []) ∧
        ∀ dir ∈ left.head?, ¬reg.CanTell fs dir) ∧
    (search.found.Pairwise fun a b => ¬b.repository.root.parts <+: a.repository.root.parts) ∧
    (∀ (σ : Type) (onFound : σ → Found → σ) (told : σ),
      reg.discoverTelling fs config root onFound told = (search.found.foldl onFound told, search)) ∧
    (∀ (w : World) (json : Bool) (s : Session),
      ((Cli.discoveryReport w config root json).runOn s).2.runs = s.runs) ∧
    ∀ dir f, builtin.Owns fs dir f ↔
      f = (Backend.bitkeeper.kind, .ofBackend .bitkeeper) ∧ fs.hasDir (dir.child ".bk") = .ok true ∨
      f = (Backend.git.kind, .ofBackend .git) ∧ fs.hasDir (dir.child ".bk") = .ok false ∧
        fs.has (dir.child ".git") = .ok true := by
  intro visited search
  have hordered : visited.Pairwise (· < ·) := (Listing.pairwise_visited hdistinct).filter _
  have hsearch : search = reg.discoverAmong fs config (visited.map root.descend) := by
    simp only [search, discover, Files.visited_eq hroot]
    rfl
  obtain ⟨looked, left, hlooked, hcollects, hfault, hleft⟩ :=
    reg.exists_collects fs config (visited.map root.descend)
  rw [← hsearch] at hcollects hfault
  refine ⟨⟨hordered, Files.canVisit_of_item? hroot, fun names => ?_⟩,
    ⟨looked, left, hlooked, hcollects, hfault, hleft⟩, ?_,
    fun σ onFound told => discoverTelling_eq reg fs config root onFound told,
    fun w json s => runs_discoveryReport w config root json s, fun dir f => owns_builtin_iff⟩
  · rw [List.mem_filter, Listing.mem_visited hdistinct, and_assoc]
  · -- in the order of the names nothing is a prefix of what comes before it
    have hroots : (search.found.map (·.repository.root)).Sublist (visited.map root.descend) :=
      hcollects.roots.trans (hlooked ▸ List.sublist_append_left looked left)
    have hnested : (visited.map root.descend).Pairwise fun a b => ¬b.parts <+: a.parts := by
      refine List.pairwise_map.mpr (hordered.imp ?_)
      intro first second hlt hbelow
      exact not_prefix_of_lt hlt ((List.prefix_append_right_inj root.parts).mp hbelow)
    exact List.pairwise_map.mp (hnested.sublist hroots)

/-- A directory with repositories in it and above them, markers of all kinds, and links. -/
def markedTree : Listing :=
  .dir ".git" .nil <| .dir "b" (.dir ".bk" .nil (.file ".git" [] .nil)) <|
    .dir "a" (.dir "deep" (.link ".git" "../../b" .nil) .nil) <| .link "c" "b" <|
      .dir "d" (.file ".bk" [] (.link ".git" "nowhere" .nil)) <|
        .dir ".hg" (.dir "e" (.dir ".git" .nil .nil) .nil) .nil

theorem visited_markedTree : markedTree.visited =
    [[], ["a".toList], ["a".toList, "deep".toList], ["b".toList], ["d".toList]] := by
  simp +decide only [markedTree, Listing.visited, Listing.entered, inNameOrder, List.mergeSort, List.merge,
    List.MergeSort.Internal.splitInTwo_fst, List.MergeSort.Internal.splitInTwo_snd, List.length, List.take,
    List.drop, List.map, List.flatMap_cons, List.flatMap_nil, List.append_nil, List.nil_append,
    List.cons_append, ↓reduceIte]

theorem discover_collects_of_markedTree :
    let fs : Files := { top := .dir "r" markedTree .nil }
    let root : Path := .ofText "/r"
    let search := builtin.discover fs {} root
    fs.item? root = .ok (some (.dir markedTree)) ∧ markedTree.isDistinct = true ∧
      search.result.toOption.map (List.map fun found => (found.kind, found.repository.root.parts)) =
        some [("git".toList, ["r".toList]), ("git".toList, ["r".toList, "a".toList, "deep".toList]),
          ("bitkeeper".toList, ["r".toList, "b".toList])] ∧
      ∃ looked left, (markedTree.visited.filter root.canVisit).map root.descend = looked ++ left ∧
        builtin.Collects fs {} looked search.found ∧ (search.fault? = none ↔ left = []) ∧
          ∀ dir ∈ left.head?, ¬builtin.CanTell fs dir := by
  intro fs root search
  have hroot : fs.item? root = .ok (some (.dir markedTree)) := by decide +kernel
  have hdistinct : markedTree.isDistinct = true := by decide +kernel
  refine ⟨hroot, hdistinct, ?_, (discover_collects builtin fs {} root hroot hdistinct).2.1⟩
  simp only [search, discover, Files.visited_eq hroot, visited_markedTree]
  decide +kernel

/-- Where a marker is a link to a name that is too long, a search comes to nothing. -/
theorem not_discovers :
    let target : Text := List.replicate 256 'x'
    let fs : Files :=
      { top := .dir "T" (.dir "r" (.link ".git" target .nil) .nil) .nil, current := .ofText "/T" }
    ∃ inside, fs.item? (.ofText ".") = .ok (some (.dir inside)) ∧ inside.isDistinct = true ∧
      (builtin.discover fs {} (.ofText ".")).result = .error (.tooLong "r/.git") ∧
      ∀ found, (builtin.discover fs {} (.ofText ".")).result ≠ .ok found := by
  intro target fs
  have hresult : (builtin.discover fs {} (.ofText ".")).result = .error (.tooLong "r/.git") := by
    decide +kernel
  refine ⟨.dir "r" (.link ".git" target .nil) .nil, by decide +kernel, by decide +kernel, hresult, ?_⟩
  intro found h
  exact nomatch hresult.symm.trans h

end Registry

end Annals

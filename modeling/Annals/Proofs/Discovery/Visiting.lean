import Annals.Discovery.Walk
import Annals.Proofs.Text.Order

/-!
# Directories that are visited

The search downwards visits the directories that are reached from its root through directories alone, by
names that are not those of a tool's own (`mem_visited`), in the order of their names, so that a directory
comes before what it holds (`pairwise_visited`). If one is visited, those on the way to it are
(`mem_visited_of_prefix`).
-/

namespace Annals

namespace Listing

/-- The items in a directory, with their names. -/
def items : Listing → Assoc Text Item
  | nil => []
  | file name content rest => (name, .file content) :: items rest
  | link name target rest => (name, .link target) :: items rest
  | dir name inside rest => (name, .dir inside) :: items rest

def names (top : Listing) : List Text := Assoc.keys top.items

/-- Whether no directory of a tree has two items of the same name. -/
def isDistinct : Listing → Bool
  | nil => true
  | file name _ rest => !rest.names.contains name && isDistinct rest
  | link name _ rest => !rest.names.contains name && isDistinct rest
  | dir name inside rest => !rest.names.contains name && isDistinct inside && isDistinct rest

/-- The directories in a directory that are entered, with their names. -/
def subdirs : Listing → List (Text × Listing)
  | nil => []
  | file _ _ rest => subdirs rest
  | link _ _ rest => subdirs rest
  | dir name inside rest =>
    if skippedNames.contains name then subdirs rest else (name, inside) :: subdirs rest

variable {top inside : Listing} {name : Text} {names : List Text}

/-! ## Items and directories -/

theorem nodup_names (h : top.isDistinct = true) : top.names.Nodup := by
  induction top with
  | nil => exact List.nodup_nil
  | file name _ rest ih | link name _ rest ih =>
    obtain ⟨hname, hrest⟩ : name ∉ rest.names ∧ rest.isDistinct = true := by simpa [isDistinct] using h
    exact List.nodup_cons.mpr ⟨hname, ih hrest⟩
  | dir name inside rest _ ih =>
    obtain ⟨⟨hname, -⟩, hrest⟩ :
        (name ∉ rest.names ∧ inside.isDistinct = true) ∧ rest.isDistinct = true := by
      simpa [isDistinct] using h
    exact List.nodup_cons.mpr ⟨hname, ih hrest⟩

theorem isDistinct_of_mem_items (h : top.isDistinct = true) (hmem : (name, .dir inside) ∈ top.items) :
    inside.isDistinct = true := by
  induction top with
  | nil => contradiction
  | file _ _ rest ih | link _ _ rest ih =>
    have hrest : rest.isDistinct = true := (Bool.and_eq_true_iff.mp h).2
    exact ih hrest (List.mem_of_ne_of_mem (by simp) hmem)
  | dir _ below rest _ ih =>
    obtain ⟨hbelow, hrest⟩ := Bool.and_eq_true_iff.mp h
    rcases List.mem_cons.mp hmem with heq | hmem
    · obtain rfl : inside = below := Item.dir.inj (Prod.ext_iff.mp heq).2
      exact (Bool.and_eq_true_iff.mp hbelow).2
    · exact ih hrest hmem

theorem item?_eq_get? (name : Text) (top : Listing) : top.item? name = Assoc.get? name top.items := by
  induction top with
  | nil => rfl
  | file _ _ _ ih | link _ _ _ ih | dir _ _ _ _ ih => rw [item?, items, Assoc.get?, ih]

theorem item?_eq_some_iff (h : top.isDistinct = true) {item : Item} :
    top.item? name = some item ↔ (name, item) ∈ top.items := by
  rw [item?_eq_get?, Assoc.get?_eq_some_iff (nodup_names h)]

theorem mem_subdirs :
    (name, inside) ∈ top.subdirs ↔ name ∉ skippedNames ∧ (name, .dir inside) ∈ top.items := by
  induction top with
  | nil => simp [subdirs, items]
  | file _ _ _ ih | link _ _ _ ih => simpa [subdirs, items] using ih
  | dir n below rest _ ih =>
    simp only [subdirs, items, List.mem_cons, Prod.mk.injEq, Item.dir.injEq]
    split
    · next hskipped =>
      have hskipped : n ∈ skippedNames := List.contains_iff_mem.mp hskipped
      rw [ih]
      grind
    · next hentered =>
      have hentered : n ∉ skippedNames := fun h => hentered (List.contains_iff_mem.mpr h)
      rw [List.mem_cons, ih, Prod.mk.injEq]
      grind

theorem at?_cons_eq_dir_iff : top.at? (name :: names) = some (.dir inside) ↔
    ∃ below, top.item? name = some (.dir below) ∧ below.at? names = some (.dir inside) := by
  cases names with
  | nil => simp [at?]
  | cons next names =>
    simp only [at?]
    split
    · next below hbelow => simp [hbelow]
    · next hnot =>
      simp only [reduceCtorEq, false_iff]
      rintro ⟨below, hbelow, -⟩
      exact hnot below hbelow

/-! ## What is visited -/

theorem entered_eq (top : Listing) :
    top.entered = top.subdirs.map fun d => (d.1, d.2.visited.map (d.1 :: ·)) := by
  induction top with
  | nil => rfl
  | file _ _ _ ih => exact ih
  | link _ _ _ ih => exact ih
  | dir name inside rest _ ih =>
    rw [entered, subdirs]
    split
    · exact ih
    · rw [ih]
      rfl

theorem mem_inNameOrder {α : Type} {groups : List (Text × List α)} {a : α} :
    a ∈ inNameOrder groups ↔ ∃ group ∈ groups, a ∈ group.2 := by
  simp [inNameOrder]

theorem mem_visited_iff : names ∈ top.visited ↔
    names = [] ∨ ∃ d ∈ top.subdirs, ∃ rest ∈ d.2.visited, d.1 :: rest = names := by
  rw [visited, List.mem_cons, mem_inNameOrder, entered_eq]
  simp

/-- On the way to a directory that is visited, all directories are. -/
theorem mem_visited_of_prefix {first : List Text} (hbelow : first <+: names) (h : names ∈ top.visited) :
    first ∈ top.visited := by
  induction names generalizing top first with
  | nil =>
    obtain rfl := List.prefix_nil.mp hbelow
    exact h
  | cons name names ih =>
    cases first with
    | nil => exact mem_visited_iff.mpr (.inl rfl)
    | cons name' first =>
      obtain ⟨rfl, hfirst⟩ := List.cons_prefix_cons.mp hbelow
      obtain ⟨d, hd, rest, hrest, heq⟩ := (mem_visited_iff.mp h).resolve_left (List.cons_ne_nil _ _)
      obtain ⟨rfl, rfl⟩ := List.cons.inj heq
      exact mem_visited_iff.mpr (.inr ⟨d, hd, first, ih hfirst hrest, rfl⟩)

theorem mem_visited (h : top.isDistinct = true) : names ∈ top.visited ↔
    (∃ inside, top.at? names = some (.dir inside)) ∧ ∀ name ∈ names, name ∉ skippedNames := by
  induction names generalizing top with
  | nil => exact iff_of_true (mem_visited_iff.mpr (.inl rfl)) ⟨⟨top, rfl⟩, nofun⟩
  | cons name names ih =>
    rw [List.forall_mem_cons]
    constructor
    · intro hvisited
      obtain ⟨d, hd, rest, hrest, heq⟩ :=
        (mem_visited_iff.mp hvisited).resolve_left (List.cons_ne_nil _ _)
      obtain ⟨rfl, rfl⟩ := List.cons.inj heq
      obtain ⟨hentered, hmem⟩ := mem_subdirs.mp hd
      obtain ⟨⟨inside, hinside⟩, hrest⟩ := (ih (isDistinct_of_mem_items h hmem)).mp hrest
      exact ⟨⟨inside, at?_cons_eq_dir_iff.mpr ⟨d.2, (item?_eq_some_iff h).mpr hmem, hinside⟩⟩,
        hentered, hrest⟩
    · rintro ⟨⟨inside, hinside⟩, hentered, hrest⟩
      obtain ⟨below, hitem, hbelow⟩ := at?_cons_eq_dir_iff.mp hinside
      have hmem := (item?_eq_some_iff h).mp hitem
      have hvisited := (ih (isDistinct_of_mem_items h hmem)).mpr ⟨⟨inside, hbelow⟩, hrest⟩
      exact mem_visited_iff.mpr
        (.inr ⟨(name, below), mem_subdirs.mpr ⟨hentered, hmem⟩, names, hvisited, rfl⟩)

/-! ## The order -/

theorem pairwise_inNameOrder {groups : List (Text × List (List Text))}
    (hnames : (groups.map (·.1)).Nodup) (hsorted : ∀ group ∈ groups, group.2.Pairwise (· < ·))
    (hheads : ∀ group ∈ groups, ∀ names ∈ group.2, names.head? = some group.1) :
    (inNameOrder groups).Pairwise (· < ·) := by
  let le (a b : Text × List (List Text)) : Bool := Text.le a.1 b.1
  have hperm : (groups.mergeSort le).Perm groups := List.mergeSort_perm groups le
  have hle : (groups.mergeSort le).Pairwise fun a b => le a b = true := by
    refine List.pairwise_mergeSort (fun a b c hab hbc => ?_) (fun a b => ?_) groups
    · exact Text.le_trans hab hbc
    · exact Text.le_total a.1 b.1
  have hnodup : ((groups.mergeSort le).map (·.1)).Nodup := (hperm.map (·.1)).nodup_iff.mpr hnames
  have hlt : (groups.mergeSort le).Pairwise fun a b => a.1 < b.1 :=
    hle.imp₂ (fun a b hab hne => Text.lt_of_not_lt_of_ne (Text.le_iff.mp hab) hne)
      (List.pairwise_map.mp hnodup)
  rw [inNameOrder, List.pairwise_flatMap]
  refine ⟨fun group hgroup => hsorted group (hperm.mem_iff.mp hgroup), ?_⟩
  refine hlt.imp_of_mem fun {a b} ha hb hab first hfirst second hsecond => ?_
  -- the names that lead to what two groups hold differ in the first place
  obtain ⟨firsts, rfl⟩ := List.head?_eq_some_iff.mp (hheads a (hperm.mem_iff.mp ha) first hfirst)
  obtain ⟨seconds, rfl⟩ := List.head?_eq_some_iff.mp (hheads b (hperm.mem_iff.mp hb) second hsecond)
  exact List.cons_lt_cons_iff.mpr (.inl hab)

theorem pairwise_visited_of_subdirs (hdistinct : (top.subdirs.map (·.1)).Nodup)
    (h : ∀ d ∈ top.subdirs, d.2.visited.Pairwise (· < ·)) : top.visited.Pairwise (· < ·) := by
  have hbelow : (inNameOrder top.entered).Pairwise (· < ·) := by
    rw [entered_eq]
    refine pairwise_inNameOrder ?_ ?_ ?_
    · simpa [Function.comp_def] using hdistinct
    · intro group hgroup
      obtain ⟨d, hd, rfl⟩ := List.mem_map.mp hgroup
      exact List.pairwise_map.mpr ((h d hd).imp fun hlt => List.cons_lt_cons_iff.mpr (.inr ⟨rfl, hlt⟩))
    · intro group hgroup names hnames
      obtain ⟨d, hd, rfl⟩ := List.mem_map.mp hgroup
      obtain ⟨rest, -, rfl⟩ := List.mem_map.mp hnames
      rfl
  refine List.pairwise_cons.mpr ⟨fun names hnames => ?_, hbelow⟩
  rw [entered_eq, mem_inNameOrder] at hnames
  obtain ⟨group, hgroup, hnames⟩ := hnames
  obtain ⟨d, hd, rfl⟩ := List.mem_map.mp hgroup
  obtain ⟨rest, -, rfl⟩ := List.mem_map.mp hnames
  exact List.nil_lt_cons d.1 rest

theorem nodup_subdirs (h : top.names.Nodup) : (top.subdirs.map (·.1)).Nodup := by
  induction top with
  | nil => exact List.nodup_nil
  | file _ _ _ ih | link _ _ _ ih => exact ih (List.nodup_cons.mp h).2
  | dir name inside rest _ ih =>
    obtain ⟨hname, hrest⟩ := List.nodup_cons.mp h
    rw [subdirs]
    split
    · exact ih hrest
    · refine List.nodup_cons.mpr ⟨fun hmem => hname ?_, ih hrest⟩
      obtain ⟨d, hd, rfl⟩ := List.mem_map.mp hmem
      exact List.mem_map.mpr ⟨(d.1, .dir d.2), (mem_subdirs.mp hd).2, rfl⟩

theorem pairwise_visited_subdirs (h : top.isDistinct = true) :
    ∀ d ∈ top.subdirs, d.2.visited.Pairwise (· < ·) := by
  induction top with
  | nil => exact nofun
  | file _ _ _ ih | link _ _ _ ih => exact ih (Bool.and_eq_true_iff.mp h).2
  | dir name inside rest hinside hrest =>
    obtain ⟨hname, hdistinct⟩ := Bool.and_eq_true_iff.mp h
    have hbelow : inside.isDistinct = true := (Bool.and_eq_true_iff.mp hname).2
    rw [subdirs]
    split
    · exact hrest hdistinct
    · exact List.forall_mem_cons.mpr
        ⟨pairwise_visited_of_subdirs (nodup_subdirs (nodup_names hbelow)) (hinside hbelow),
          hrest hdistinct⟩

/-- A directory is visited before those in it, and siblings are visited in the order of their names. -/
theorem pairwise_visited (h : top.isDistinct = true) : top.visited.Pairwise (· < ·) :=
  pairwise_visited_of_subdirs (nodup_subdirs (nodup_names h)) (pairwise_visited_subdirs h)

end Listing

/-! ## Paths of what is visited -/

namespace Path

theorem prefix_foldl_visitChild (names : List Text) (above : Text) : above <+: names.foldl visitChild above := by
  induction names generalizing above with
  | nil => exact List.prefix_refl _
  | cons name names ih =>
    refine List.IsPrefix.trans ?_ (ih (visitChild above name))
    unfold visitChild
    split
    · exact List.prefix_append _ _
    · exact List.prefix_append _ _

theorem visitText_prefix (root : Path) {first names : List Text} (h : first <+: names) :
    root.visitText first <+: root.visitText names := by
  obtain ⟨rest, rfl⟩ := h
  rw [visitText, visitText, List.foldl_append]
  exact prefix_foldl_visitChild rest _

/-- On the way to a directory that can be visited, all directories can. -/
theorem canVisit_of_prefix {root : Path} {first names : List Text} (h : first <+: names)
    (hvisit : root.canVisit names = true) : root.canVisit first = true := by
  obtain ⟨rest, hrest⟩ := root.visitText_prefix h
  have hlength : (Utf8.encode (root.visitText first)).length ≤ (Utf8.encode (root.visitText names)).length := by
    rw [← hrest, Utf8.encode, Utf8.encode, List.flatMap_append, List.length_append]
    exact Nat.le_add_right _ _
  simp only [canVisit, exceeds, Bool.not_eq_true', decide_eq_false_iff_not, Nat.not_lt] at hvisit ⊢
  exact Nat.le_trans hlength hvisit

end Path

namespace Files

variable {fs : Files} {root : Path} {inside : Listing}

theorem lookUp_of_item? (h : fs.item? root = .ok (some (.dir inside))) :
    fs.lookUp root.toText = .ok (some (.dir inside)) := by
  unfold item? at h
  split at h
  · exact nomatch Except.ok.inj h
  · exact h

theorem canVisit_of_item? (h : fs.item? root = .ok (some (.dir inside))) : root.canVisit [] = true := by
  have hlookUp := lookUp_of_item? h
  unfold lookUp at hlookUp
  split at hlookUp
  · contradiction
  split at hlookUp
  · contradiction
  · next hshort => simpa [Path.canVisit, Path.visitText] using hshort

theorem visited_eq (h : fs.item? root = .ok (some (.dir inside))) :
    fs.visited root = .ok ((inside.visited.filter root.canVisit).map root.descend) := by
  rw [visited, lookUp_of_item? h]

end Files

end Annals

import Annals.Files.Tree
import Annals.Proofs.Text.Fields

/-!
# Paths in trees without links

Where no directory holds a link, following names comes to the directory that two dots fold to, if it comes
to anything (`fold_of_follow`). So what a path leads to depends on its names only (`item?_eq`), and a
directory and a spelling of it with dots hold the same.
-/

namespace Annals

namespace Listing

/-- Whether there is no link in a tree. -/
def isLinkFree : Listing → Bool
  | nil => true
  | file _ _ rest => isLinkFree rest
  | link _ _ _ => false
  | dir _ inside rest => isLinkFree inside && isLinkFree rest

theorem item?_of_isLinkFree {name : Text} {top : Listing} (h : top.isLinkFree = true) {item : Item}
    (hitem : top.item? name = some item) :
    (∀ target, item ≠ .link target) ∧ ∀ inside, item = .dir inside → inside.isLinkFree = true := by
  induction top with
  | nil => contradiction
  | file n content rest ih =>
    rw [item?] at hitem
    split at hitem
    · obtain rfl := Option.some.inj hitem
      exact ⟨nofun, nofun⟩
    · exact ih h hitem
  | link n target rest => contradiction
  | dir n inside rest _ ih =>
    obtain ⟨hinside, hrest⟩ := Bool.and_eq_true_iff.mp h
    rw [item?] at hitem
    split at hitem
    · obtain rfl := Option.some.inj hitem
      exact ⟨nofun, fun inside' h => Item.dir.inj h ▸ hinside⟩
    · exact ih hrest hitem

theorem isLinkFree_of_at? {top inside : Listing} {names : List Text} (h : top.isLinkFree = true)
    (hat : top.at? names = some (.dir inside)) : inside.isLinkFree = true := by
  induction names generalizing top with
  | nil =>
    obtain rfl : top = inside := Item.dir.inj (Option.some.inj hat)
    exact h
  | cons name names ih =>
    cases names with
    | nil => exact (item?_of_isLinkFree h hat).2 inside rfl
    | cons next names =>
      simp only [at?] at hat
      split at hat
      · next below hbelow => exact ih ((item?_of_isLinkFree h hbelow).2 below rfl) hat
      · contradiction

end Listing

namespace Path

/-- A path whose names are such as are written between slashes. -/
structure IsSplit (p : Path) : Prop where
  anchor : ∀ c ∈ p.anchor, c = '/'
  ne_nil : ∀ name ∈ p.parts, name ≠ []
  slash : ∀ name ∈ p.parts, '/' ∉ name

theorem isSplit_ofText (t : Text) : (ofText t).IsSplit where
  anchor := by
    unfold ofText
    simp only
    split <;> simp
  ne_nil name hname := by
    obtain ⟨-, h⟩ := List.mem_filter.mp hname
    exact (by simpa using h : name ≠ [] ∧ name ≠ ['.']).1
  slash name hname := Text.sep_notMem_of_mem_fields (List.mem_filter.mp hname).1

theorem IsSplit.join {p q : Path} (hp : p.IsSplit) (hq : q.IsSplit) : (p.join q).IsSplit := by
  unfold Path.join
  split
  · exact hq
  · exact ⟨hp.anchor, List.forall_mem_append.mpr ⟨hp.ne_nil, hq.ne_nil⟩,
      List.forall_mem_append.mpr ⟨hp.slash, hq.slash⟩⟩

theorem toText_eq (p : Path) (h : p.anchor ≠ [] ∨ p.parts ≠ []) :
    p.toText = p.anchor ++ Text.join ['/'] p.parts := by
  unfold toText
  split
  · simp_all
  · rfl

namespace IsSplit

variable {p : Path} (h : p.IsSplit)

include h

theorem head?_toText (hanchor : p.anchor = []) : ∃ c, p.toText.head? = some c ∧ c ≠ '/' := by
  cases hparts : p.parts with
  | nil => exact ⟨'.', by simp [toText, hanchor, hparts], by decide⟩
  | cons name names =>
    have hmem : name ∈ p.parts := hparts ▸ List.mem_cons_self
    obtain ⟨c, cs, rfl⟩ := List.exists_cons_of_ne_nil (h.ne_nil name hmem)
    refine ⟨c, ?_, fun hc => h.slash _ hmem (hc ▸ List.mem_cons_self)⟩
    rw [toText_eq p (.inr (by simp [hparts])), hanchor, hparts]
    cases names <;> simp [Text.join, List.intercalate]

theorem startsWith_toText : Text.startsWith ['/'] p.toText = p.isAbsolute := by
  rw [Bool.eq_iff_iff, Text.startsWith_iff, isAbsolute]
  cases hanchor : p.anchor with
  | nil =>
    obtain ⟨c, hhead, hc⟩ := h.head?_toText hanchor
    obtain ⟨cs, htext⟩ := List.head?_eq_some_iff.mp hhead
    simp [htext, List.cons_prefix_cons, hc.symm]
  | cons c cs =>
    obtain rfl : c = '/' := h.anchor c (hanchor ▸ List.mem_cons_self)
    simp [toText_eq p (.inl (by simp [hanchor])), hanchor]

/-- A character that is neither a slash nor a dot is in the text of a path only as part of a name. -/
theorem notMem_toText {c : Char} (hslash : c ≠ '/') (hdot : c ≠ '.') :
    c ∉ p.toText ↔ ∀ name ∈ p.parts, c ∉ name := by
  by_cases hempty : p.anchor = [] ∧ p.parts = []
  · simp [toText, hempty, hdot]
  rw [toText_eq p (not_and_or.mp hempty), List.mem_append, not_or]
  refine ⟨fun hc name hname hmem => hc.2 (Text.subset_join hname hmem), fun hc => ⟨fun hanchor => ?_, ?_⟩⟩
  · exact hslash (h.anchor c hanchor)
  · exact Text.notMem_join (by simpa using hslash) hc

theorem toText_ne_nil : p.toText ≠ [] := by
  cases hanchor : p.anchor with
  | nil =>
    obtain ⟨c, hhead, -⟩ := h.head?_toText hanchor
    intro hnil
    simp [hnil] at hhead
  | cons c cs => simp [toText_eq p (.inl (by simp [hanchor])), hanchor]

end IsSplit

end Path

namespace Files

/-! ## Folding -/

/-- Where a name leads from a directory: two dots to the one above. -/
def foldName (here : List Text) (name : Text) : List Text :=
  if name = [] ∨ name = thisDir then here
  else if name = upDir then here.dropLast
  else here ++ [name]

/-- Where names lead from a directory. -/
def fold (here names : List Text) : List Text := names.foldl foldName here

@[simp] theorem fold_cons (here : List Text) (name : Text) (names : List Text) :
    fold here (name :: names) = fold (foldName here name) names := rfl

theorem fold_append (here names names' : List Text) :
    fold here (names ++ names') = fold (fold here names) names' := List.foldl_append

/-- One name goes one step down or up at most, so no directory is passed by. -/
theorem eq_or_above_of_foldName {here dir : List Text} {name : Text} (h : dir <+: foldName here name) :
    dir <+: here ∨ dir = foldName here name := by
  by_cases hthis : name = [] ∨ name = thisDir
  · rw [foldName, if_pos hthis] at h
    exact .inl h
  by_cases hup : name = upDir
  · rw [foldName, if_neg hthis, if_pos hup] at h
    exact .inl (h.trans (List.dropLast_prefix here))
  · rw [foldName, if_neg hthis, if_neg hup] at h ⊢
    exact (List.prefix_concat_iff.mp h).symm

/-- A directory above the one that names lead to, itself included, is above the one they lead from, or
some of the names lead to it. -/
theorem exists_fold_eq {here names dir : List Text} (h : dir <+: fold here names) :
    dir <+: here ∨
      ∃ earlier later, names = earlier ++ later ∧ earlier ≠ [] ∧ fold here earlier = dir := by
  induction names generalizing here with
  | nil => exact .inl h
  | cons name names ih =>
    rw [fold_cons] at h
    rcases ih h with h | ⟨earlier, later, rfl, hne, hfold⟩
    · rcases eq_or_above_of_foldName h with h | h
      · exact .inl h
      · exact .inr ⟨[name], names, rfl, List.cons_ne_nil _ _, h.symm⟩
    · exact .inr ⟨name :: earlier, later, rfl, List.cons_ne_nil _ _, hfold⟩

/-- Names without two dots lead down. -/
theorem prefix_fold {here names : List Text} (h : upDir ∉ names) : here <+: fold here names := by
  induction names generalizing here with
  | nil => exact List.prefix_refl here
  | cons name names ih =>
    obtain ⟨hname, hnames⟩ := not_or.mp (List.mem_cons.not.mp h)
    refine List.IsPrefix.trans ?_ (ih hnames)
    unfold foldName
    split
    · exact List.prefix_refl here
    · rw [if_neg (Ne.symm hname)]
      exact List.prefix_append here [name]

theorem fold_of_names {here names : List Text}
    (h : ∀ name ∈ names, name ≠ [] ∧ name ≠ thisDir ∧ name ≠ upDir) :
    fold here names = here ++ names := by
  induction names generalizing here with
  | nil => exact (List.append_nil here).symm
  | cons name names ih =>
    obtain ⟨⟨hempty, hthis, hup⟩, hnames⟩ := List.forall_mem_cons.mp h
    have hname : foldName here name = here ++ [name] := by simp [foldName, hempty, hthis, hup]
    rw [fold_cons, hname, ih hnames, List.append_assoc]
    rfl

/-! ## Following -/

variable {top : Listing}

/-- A name that is followed on the way to somewhere is followed from a directory to where it folds to. -/
theorem follow_cons_of_arrived {here there left : List Text} {name : Text}
    (h : follow top here (name :: left) = .arrived there) :
    (∃ inside, top.at? here = some (.dir inside)) ∧
      ∀ left', follow top here (name :: left') = follow top (foldName here name) left' := by
  rw [follow] at h
  split at h
  · next inside hinside =>
    refine ⟨⟨inside, hinside⟩, fun left' => ?_⟩
    rw [follow, hinside, foldName]
    by_cases hthis : name = [] ∨ name = thisDir
    · simp only [if_pos hthis]
    by_cases hup : name = upDir
    · simp only [if_neg hthis, if_pos hup]
    simp only [if_neg hthis, if_neg hup] at h ⊢
    by_cases hlong : exceeds maxNameBytes name = true
    · rw [if_pos hlong] at h
      contradiction
    rw [if_neg hlong] at h ⊢
    split at h
    · contradiction
    · contradiction
    · rfl
  · contradiction

theorem follow_append {here there names : List Text} (names' : List Text)
    (h : follow top here names = .arrived there) :
    follow top here (names ++ names') = follow top there names' := by
  induction names generalizing here with
  | nil =>
    obtain rfl : here = there := Trail.arrived.inj h
    rfl
  | cons name names ih =>
    obtain ⟨-, hname⟩ := follow_cons_of_arrived h
    rw [hname] at h
    rw [List.cons_append, hname, ih h]

/-- Following comes to where the names fold to, if it comes to anything. -/
theorem fold_of_follow {here there names : List Text} (h : follow top here names = .arrived there) :
    fold here names = there := by
  induction names generalizing here with
  | nil => exact Trail.arrived.inj h
  | cons name names ih =>
    obtain ⟨-, hname⟩ := follow_cons_of_arrived h
    rw [hname] at h
    exact ih h

/-- On the way to somewhere, any first few names lead somewhere as well, to a directory if more follow. -/
theorem follow_of_append {here there names names' : List Text}
    (h : follow top here (names ++ names') = .arrived there) :
    follow top here names = .arrived (fold here names) ∧
      (names' ≠ [] → ∃ inside, top.at? (fold here names) = some (.dir inside)) := by
  induction names generalizing here with
  | nil =>
    refine ⟨rfl, fun hne => ?_⟩
    obtain ⟨name, left, rfl⟩ := List.exists_cons_of_ne_nil hne
    exact (follow_cons_of_arrived h).1
  | cons name names ih =>
    obtain ⟨-, hname⟩ := follow_cons_of_arrived h
    rw [List.cons_append, hname] at h
    rw [hname]
    exact ih h

theorem follow_ne_met (htop : top.isLinkFree = true) (here names here' left : List Text) (target : Text) :
    follow top here names ≠ .met here' target left := by
  induction names generalizing here with
  | nil => exact nofun
  | cons name names ih =>
    rw [follow]
    split
    · next inside hinside =>
      have hfree := Listing.isLinkFree_of_at? htop hinside
      split
      · exact ih here
      split
      · exact ih here.dropLast
      split
      · exact nofun
      split
      · exact nofun
      · next link hlink => exact absurd rfl ((Listing.item?_of_isLinkFree hfree hlink).1 link)
      · exact ih (here ++ [name])
    · exact nofun

theorem follow_ne_tooLong {names : List Text} (hshort : ∀ name ∈ names, exceeds maxNameBytes name = false)
    (here : List Text) : follow top here names ≠ .tooLong := by
  induction names generalizing here with
  | nil => exact nofun
  | cons name names ih =>
    obtain ⟨hname, hnames⟩ := List.forall_mem_cons.mp hshort
    rw [follow]
    split
    · split
      · exact ih hnames here
      split
      · exact ih hnames here.dropLast
      split
      · next hlong => simp [hname] at hlong
      split
      · exact nofun
      · exact nofun
      · exact ih hnames (here ++ [name])
    · exact nofun

theorem follow_replicate_nil (n : Nat) {here names : List Text}
    (hhere : ∃ inside, top.at? here = some (.dir inside)) :
    follow top here (List.replicate n [] ++ names) = follow top here names := by
  obtain ⟨inside, hhere⟩ := hhere
  induction n with
  | zero => rfl
  | succ n ih =>
    rw [List.replicate_succ, List.cons_append, follow, hhere]
    simpa using ih

/-- The pieces of a path's text lead where its names lead. -/
theorem follow_fields {p : Path} (hp : p.IsSplit) {here : List Text}
    (hhere : ∃ inside, top.at? here = some (.dir inside)) :
    follow top here (Text.fields '/' p.toText) = follow top here p.parts := by
  by_cases hdot : p.anchor = [] ∧ p.parts = []
  · -- the text is a dot, which leads to the directory itself
    have htext : p.toText = thisDir := by simp [Path.toText, hdot, thisDir]
    have hfields : Text.fields '/' thisDir = [thisDir] := by decide
    obtain ⟨inside, hinside⟩ := hhere
    rw [htext, hfields, hdot.2]
    simp [follow, hinside]
  have hfields : Text.fields '/' p.toText =
      List.replicate p.anchor.length [] ++ Text.fields '/' (Text.join ['/'] p.parts) := by
    rw [Path.toText_eq p (not_and_or.mp hdot)]
    rw [← Text.fields_replicate_append, ← List.eq_replicate_of_mem hp.anchor]
  rw [hfields, follow_replicate_nil _ hhere]
  by_cases hparts : p.parts = []
  · rw [hparts]
    exact follow_replicate_nil 1 hhere
  · rw [Text.fields_join hparts hp.slash]

/-! ## Looking up -/

/-- Where a path starts. -/
def start (fs : Files) (p : Path) : List Text := if p.isAbsolute then [] else fs.current.parts

/-- What names lead to from a directory. -/
def reached (top : Listing) (here names : List Text) : Option Item :=
  match follow top here names with
  | .arrived there => top.at? there
  | _ => none

theorem reached_of_follow {here there names : List Text} (h : follow top here names = .arrived there) :
    reached top here names = top.at? there := by
  rw [reached, h]

theorem arrive_of_isLinkFree (htop : top.isLinkFree = true) (links : Nat) (here names : List Text) :
    arrive top links here names = follow top here names := by
  rw [arrive]
  split
  · next hmet => exact absurd hmet (follow_ne_met htop here names _ _ _)
  · rfl

/-- Looking up a path in a tree without links takes its names one after another. -/
theorem lookUp_eq {fs : Files} (htop : fs.top.isLinkFree = true) {p : Path} (hp : p.IsSplit)
    (hnul : '\x00' ∉ p.toText) (hshort : exceeds maxPathBytes p.toText = false)
    (hstart : ∃ inside, fs.top.at? (fs.start p) = some (.dir inside)) :
    fs.lookUp p.toText =
      match follow fs.top (fs.start p) p.parts with
      | .arrived names => .ok (fs.top.at? names)
      | .tooLong => .error (.tooLong p.toText)
      | _ => .ok none := by
  have hnonempty : p.toText.isEmpty = false := by simpa using hp.toText_ne_nil
  have hcontains : p.toText.contains '\x00' = false := by simpa using hnul
  simp only [lookUp, hcontains, hshort, hnonempty, arrive_of_isLinkFree htop, hp.startsWith_toText]
  rw [← follow_fields hp hstart]
  rfl

theorem item?_eq {fs : Files} (htop : fs.top.isLinkFree = true) {p : Path} (hp : p.IsSplit)
    (hnul : '\x00' ∉ p.toText) (hshort : exceeds maxPathBytes p.toText = false)
    (hstart : ∃ inside, fs.top.at? (fs.start p) = some (.dir inside))
    (hnames : follow fs.top (fs.start p) p.parts ≠ .tooLong) :
    fs.item? p = .ok (reached fs.top (fs.start p) p.parts) := by
  rw [item?, lookUp_eq htop hp hnul hshort hstart, reached]
  cases hfollow : follow fs.top (fs.start p) p.parts with
  | arrived there => rfl
  | met here target left => rfl
  | lost => rfl
  | tooLong => contradiction

/-! ## Trees without links, seen from a directory -/

/-- A tree without links, seen from one of its directories. -/
structure IsPlain (fs : Files) : Prop where
  linkFree : fs.top.isLinkFree = true
  absolute : fs.current.isAbsolute = true
  split : fs.current.IsSplit
  dots : ∀ name ∈ fs.current.parts, name ≠ thisDir ∧ name ≠ upDir
  hasCurrent : fs.hasDir fs.current = .ok true

/-- The names from the top of the tree to what a path leads to, with the dots in it folded. -/
def folded (fs : Files) (p : Path) : List Text := fold [] (fs.absolute p).parts

variable {fs : Files} {p : Path}

/-- A path that leads to something holds no NUL and is short, and following its names arrives. -/
theorem follow_of_item? (htop : fs.top.isLinkFree = true) (hp : p.IsSplit)
    (hstart : ∃ inside, fs.top.at? (fs.start p) = some (.dir inside)) {item : Item}
    (h : fs.item? p = .ok (some item)) :
    '\x00' ∉ p.toText ∧ follow fs.top (fs.start p) p.parts = .arrived (fold (fs.start p) p.parts) ∧
      fs.top.at? (fold (fs.start p) p.parts) = some item := by
  by_cases hnul : '\x00' ∈ p.toText
  · simp [item?, lookUp, hnul] at h
  by_cases hshort : exceeds maxPathBytes p.toText = true
  · simp [item?, lookUp, hnul, hshort] at h
  refine ⟨hnul, ?_⟩
  rw [item?, lookUp_eq htop hp hnul (by simpa using hshort) hstart] at h
  cases hfollow : follow fs.top (fs.start p) p.parts with
  | arrived there =>
    rw [hfollow] at h
    rw [fold_of_follow hfollow]
    exact ⟨rfl, by simpa using h⟩
  | met here target left => simp [hfollow] at h
  | lost => simp [hfollow] at h
  | tooLong => simp [hfollow] at h

theorem isDir_iff {item? : Option Item} : isDir item? = true ↔ ∃ inside, item? = some (.dir inside) := by
  constructor
  · intro h
    unfold isDir at h
    split at h
    · next inside => exact ⟨inside, rfl⟩
    · contradiction
  · rintro ⟨inside, rfl⟩
    rfl

theorem has_eq (fs : Files) (p : Path) : fs.has p = (fs.item? p).map Option.isSome := by
  rw [has]
  cases fs.item? p <;> rfl

theorem hasDir_eq (fs : Files) (p : Path) : fs.hasDir p = (fs.item? p).map isDir := by
  rw [hasDir]
  cases fs.item? p <;> rfl

theorem item?_of_has (h : fs.has p = .ok true) : ∃ item, fs.item? p = .ok (some item) := by
  rw [has_eq] at h
  cases hitem : fs.item? p with
  | error fault =>
    rw [hitem] at h
    exact nomatch h
  | ok found? =>
    rw [hitem] at h
    obtain ⟨item, rfl⟩ := Option.isSome_iff_exists.mp (Except.ok.inj h)
    exact ⟨item, rfl⟩

theorem item?_of_hasDir (h : fs.hasDir p = .ok true) :
    ∃ inside, fs.item? p = .ok (some (.dir inside)) := by
  rw [hasDir_eq] at h
  cases hitem : fs.item? p with
  | error fault =>
    rw [hitem] at h
    exact nomatch h
  | ok found? =>
    rw [hitem] at h
    obtain ⟨inside, rfl⟩ := isDir_iff.mp (Except.ok.inj h)
    exact ⟨inside, rfl⟩

theorem start_of_isAbsolute (h : p.isAbsolute = true) : fs.start p = [] := by rw [start, if_pos h]

/-- A path from the top of the tree that leads to something there. -/
structure Leads (fs : Files) (p : Path) (item : Item) : Prop where
  absolute : p.isAbsolute = true
  split : p.IsSplit
  nul : ∀ name ∈ p.parts, '\x00' ∉ name
  follow : follow fs.top [] p.parts = .arrived (fold [] p.parts)
  item : fs.top.at? (fold [] p.parts) = some item

theorem leads_of_item? (htop : fs.top.isLinkFree = true) (hp : p.IsSplit) (hanchor : p.isAbsolute = true)
    {item : Item} (h : fs.item? p = .ok (some item)) : fs.Leads p item := by
  have hstart : fs.start p = [] := start_of_isAbsolute hanchor
  obtain ⟨hnul, hfollow, hitem⟩ := follow_of_item? htop hp ⟨fs.top, by rw [hstart]; rfl⟩ h
  rw [hstart] at hfollow hitem
  exact ⟨hanchor, hp, (hp.notMem_toText (by decide) (by decide)).mp hnul, hfollow, hitem⟩

theorem IsPlain.leads_current (hfs : fs.IsPlain) :
    ∃ inside, fs.Leads fs.current (.dir inside) ∧ fold [] fs.current.parts = fs.current.parts := by
  obtain ⟨inside, hinside⟩ := item?_of_hasDir hfs.hasCurrent
  refine ⟨inside, leads_of_item? hfs.linkFree hfs.split hfs.absolute hinside, ?_⟩
  exact fold_of_names fun name hname => ⟨hfs.split.ne_nil name hname, hfs.dots name hname⟩

/-- What a path leads to, it leads to from the top of the tree. -/
theorem IsPlain.leads_absolute (hfs : fs.IsPlain) (hp : p.IsSplit) {item : Item}
    (h : fs.item? p = .ok (some item)) : fs.Leads (fs.absolute p) item := by
  by_cases hanchor : p.isAbsolute = true
  · rw [Files.absolute, Path.join, if_pos hanchor]
    exact leads_of_item? hfs.linkFree hp hanchor h
  obtain ⟨inside, hcurrent, hfold⟩ := hfs.leads_current
  have hat : fs.top.at? fs.current.parts = some (.dir inside) := hfold ▸ hcurrent.item
  have hstart : fs.start p = fs.current.parts := by rw [start, if_neg hanchor]
  obtain ⟨hnul, hfollow, hitem⟩ := follow_of_item? hfs.linkFree hp ⟨inside, by rw [hstart, hat]⟩ h
  rw [hstart] at hfollow hitem
  have hparts : (fs.absolute p).parts = fs.current.parts ++ p.parts := by
    rw [Files.absolute, Path.join, if_neg hanchor]
  have hfolded : fold [] (fs.absolute p).parts = fold fs.current.parts p.parts := by
    rw [hparts, fold_append, hfold]
  have hnul := (hp.notMem_toText (by decide) (by decide)).mp hnul
  refine ⟨?_, hfs.split.join hp, ?_, ?_, by rw [hfolded, hitem]⟩
  · rw [Files.absolute, Path.join, if_neg hanchor]
    exact hfs.absolute
  · rw [hparts]
    exact List.forall_mem_append.mpr ⟨hcurrent.nul, hnul⟩
  · rw [hfolded, hparts, follow_append _ hcurrent.follow, hfold, hfollow]

theorem IsPlain.notMem_absolute (hfs : fs.IsPlain) (h : upDir ∉ p.parts) :
    upDir ∉ (fs.absolute p).parts := by
  rw [Files.absolute, Path.join]
  split
  · exact h
  · intro hmem
    rcases List.mem_append.mp hmem with hmem | hmem
    · exact (hfs.dots upDir hmem).2 rfl
    · exact h hmem

theorem Leads.item?_eq (htop : fs.top.isLinkFree = true) {item : Item} (h : fs.Leads p item)
    (hshort : exceeds maxPathBytes p.toText = false) : fs.item? p = .ok (some item) := by
  have hstart : fs.start p = [] := start_of_isAbsolute h.absolute
  have hnul := (h.split.notMem_toText (by decide) (by decide)).mpr h.nul
  rw [Files.item?_eq htop h.split hnul hshort ⟨fs.top, by rw [hstart]; rfl⟩, hstart,
    reached_of_follow h.follow, h.item]
  rw [hstart, h.follow]
  exact nofun

/-- On the way to something, each step leads somewhere, and to a directory if it is not the last. -/
theorem Leads.take {item : Item} (h : fs.Leads p item) {parts : List Text} (hparts : parts <+: p.parts) :
    ∃ item', fs.Leads ⟨p.anchor, parts⟩ item' ∧ (parts ≠ p.parts → ∃ inside, item' = .dir inside) := by
  obtain ⟨rest, hrest⟩ := hparts
  have hsplit : (⟨p.anchor, parts⟩ : Path).IsSplit :=
    ⟨h.split.anchor, fun name hname => h.split.ne_nil name (hrest ▸ List.mem_append_left rest hname),
      fun name hname => h.split.slash name (hrest ▸ List.mem_append_left rest hname)⟩
  have hfollow := h.follow
  rw [← hrest] at hfollow
  obtain ⟨hfollow, hdir⟩ := follow_of_append hfollow
  have hleads {item' : Item} (hitem : fs.top.at? (fold [] parts) = some item') :
      fs.Leads ⟨p.anchor, parts⟩ item' :=
    ⟨h.absolute, hsplit, fun name hname => h.nul name (hrest ▸ List.mem_append_left rest hname), hfollow,
      hitem⟩
  cases rest with
  | nil =>
    rw [List.append_nil] at hrest
    exact ⟨item, hleads (by rw [hrest]; exact h.item), fun hne => absurd hrest hne⟩
  | cons name rest =>
    obtain ⟨inside, hinside⟩ := hdir (List.cons_ne_nil _ _)
    exact ⟨.dir inside, hleads hinside, fun _ => ⟨inside, rfl⟩⟩

end Files

end Annals

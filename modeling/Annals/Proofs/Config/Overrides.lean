import Annals.Proofs.Config.Loading
import Annals.Proofs.Config.Sections

/-!
# Executables named in a file

The options of a file count under the name of their section and their own, all in one list, and the
executables are those whose name there begins with the section for commands (`commandsIn_flatten`). If no
name has a dot in it and one section is that for commands, whatever the case of its name, they are the
options of that section that have a value and are not named in the section that stands apart as well.
`load_commands` says so of the settings of a whole file.
-/

namespace Annals

namespace Sections

/-- The name of the section for commands, in lower case. -/
def commandSection : Text := "commands"

/-- An option under the name of its section and its own. -/
def qualified (sectionName : Text) (o : Text × Text) : Text × Text :=
  (sectionName ++ "." ++ o.1, o.2)

/-- Whether an option counts under a name that begins with the section for commands. -/
def isCommand (o : Text × Text) : Bool := Text.startsWith "commands." o.1.lower

/-- Adds the executable that an option names, if it counts as a command and has a value. -/
def addCommand (m : Assoc Text Text) (o : Text × Text) : Assoc Text Text :=
  if isCommand o ∧ !o.2.isEmpty then
    match Text.cut '.' o.1 with
    | some (_, kind) => m.put kind.lower o.2
    | none => m
  else m

theorem commandsIn_eq (options : Options) : Config.commandsIn options = options.foldl addCommand [] := rfl

theorem commandSection_dot : commandSection ++ ['.'] = ("commands." : Text) := by decide

/-- The options of a section that are not inherited from the section that stands apart, nor named
there. -/
def own (s : Sections) (options : Options) : Options := options.filter fun o => !s.defaults.has o.1

/-- All options of a file with the names under which they count, in the order in which they are
written. -/
def entries (s : Sections) : Options :=
  s.defaults.map (fun o => (o.1.upper, o.2)) ++
    s.named.flatMap fun e => (s.own e.2).map (qualified e.1)

/-- No section, and no option of the section that stands apart, has a dot in its name. -/
structure NoDots (s : Sections) : Prop where
  sections : ∀ e ∈ s.named, '.' ∉ e.1
  defaults : ∀ o ∈ s.defaults, '.' ∉ o.1

theorem flatten_eq (s : Sections) : s.flatten = Assoc.putAll [] s.entries := by
  rw [flatten, entries, Assoc.putAll, List.foldl_append, List.foldl_map, List.foldl_flatMap]
  simp only [List.foldl_map]
  rfl

theorem qualified_eq (sectionName : Text) (o : Text × Text) :
    (qualified sectionName o).1 = sectionName ++ '.' :: o.1 := List.append_assoc _ _ _

theorem isCommand_qualified {sectionName : Text} (h : '.' ∉ sectionName) (o : Text × Text) :
    isCommand (qualified sectionName o) = true ↔ sectionName.lower = commandSection := by
  rw [isCommand, qualified_eq, ← commandSection_dot]
  exact Text.startsWith_lower h (by decide) o.1

/-- A name without a dot is not behind the section for commands. -/
theorem isCommand_of_notMem {o : Text × Text} (h : '.' ∉ o.1) : isCommand o = false := by
  refine Bool.eq_false_iff.2 fun hcommand => h (Text.dot_mem_lower ?_)
  obtain ⟨rest, hrest⟩ := Option.isSome_iff_exists.1 hcommand
  rw [Text.after?_eq_some_iff.1 hrest]
  exact List.mem_append_left rest (by decide)

section OneSection

variable {s : Sections} {sectionName : Text} {options : Options}

/-- The one section for commands of a file: its name is that of the section but for case. -/
def IsCommandSection (s : Sections) (sectionName : Text) (options : Options) : Prop :=
  (s.named.filter fun e => e.1.lower = commandSection) = [(sectionName, options)]

theorem IsCommandSection.spec (h : s.IsCommandSection sectionName options) :
    (sectionName, options) ∈ s.named ∧ sectionName.lower = commandSection := by
  have hmem : (sectionName, options) ∈ s.named.filter fun e => e.1.lower = commandSection :=
    h ▸ List.mem_singleton_self _
  exact ⟨(List.mem_filter.1 hmem).1, of_decide_eq_true (List.mem_filter.1 hmem).2⟩

/-- The options that count as commands are those of the sections for commands. -/
theorem filter_entries (hdots : s.NoDots) :
    s.entries.filter isCommand =
      (s.named.filter fun e => e.1.lower = commandSection).flatMap fun e =>
        (s.own e.2).map (qualified e.1) := by
  have hdefaults : (s.defaults.map fun o => (o.1.upper, o.2)).filter isCommand = [] := by
    refine List.filter_eq_nil_iff.2 fun o ho => ?_
    obtain ⟨o, hmem, rfl⟩ := List.mem_map.1 ho
    rw [isCommand_of_notMem fun hdot => hdots.defaults o hmem (Text.dot_mem_upper hdot)]
    exact Bool.false_ne_true
  have hsection : ∀ e ∈ s.named, ((s.own e.2).map (qualified e.1)).filter isCommand =
      if e.1.lower = commandSection then (s.own e.2).map (qualified e.1) else [] := by
    intro e he
    have hcommand (o : Text × Text) := isCommand_qualified (hdots.sections e he) o
    split
    · next hlower =>
      refine List.filter_eq_self.2 fun o ho => ?_
      obtain ⟨o, -, rfl⟩ := List.mem_map.1 ho
      exact (hcommand o).2 hlower
    · next hlower =>
      refine List.filter_eq_nil_iff.2 fun o ho hcounts => ?_
      obtain ⟨o, -, rfl⟩ := List.mem_map.1 ho
      exact hlower ((hcommand o).1 hcounts)
  rw [entries, List.filter_append, hdefaults, List.nil_append, List.filter_flatMap]
  generalize s.named = sections at hsection
  induction sections with
  | nil => rfl
  | cons e sections ih =>
    have hrest := ih fun e' he' => hsection e' (List.mem_cons_of_mem e he')
    rw [List.flatMap_cons, hsection e List.mem_cons_self, hrest, List.filter_cons]
    by_cases hlower : e.1.lower = commandSection <;> simp [hlower]

/-- The options with a value. -/
def valued (options : Options) : Options := options.filter fun o => !o.2.isEmpty

/-- What does not count as a command is passed over. -/
theorem commandsIn_filter (options : Options) :
    Config.commandsIn (options.filter isCommand) = Config.commandsIn options := by
  rw [commandsIn_eq, commandsIn_eq, List.foldl_filter]
  congr 1
  funext m o
  by_cases hcommand : isCommand o <;> simp [addCommand, hcommand]

theorem addCommand_qualified (hdot : '.' ∉ sectionName) (hlower : sectionName.lower = commandSection)
    (m : Assoc Text Text) (o : Text × Text) :
    addCommand m (qualified sectionName o) =
      if !o.2.isEmpty then m.put o.1.lower o.2 else m := by
  have hcommand : isCommand (qualified sectionName o) = true :=
    (isCommand_qualified hdot o).2 hlower
  have hcut : Text.cut '.' (qualified sectionName o).1 = some (sectionName, o.1) :=
    Text.cut_eq_some_iff.2 ⟨qualified_eq sectionName o, hdot⟩
  simp only [addCommand, hcommand, hcut, true_and]
  rfl

/-- The options of the section for commands name executables by their own names, if they have a value. -/
theorem commandsIn_qualified (hdot : '.' ∉ sectionName) (hlower : sectionName.lower = commandSection)
    (h : TidyOptions options) :
    Config.commandsIn (options.map (qualified sectionName)) = valued options := by
  have hvalued : Assoc.putAll [] (valued options) = valued options :=
    Assoc.putAll_of_nodup (h.filter _).nodup
  have hnames : ∀ o ∈ options, o.1.lower = o.1 := fun o ho =>
    h.lower o.1 (List.mem_map.2 ⟨o, ho, rfl⟩)
  rw [← hvalued, valued, Assoc.putAll, commandsIn_eq, List.foldl_map, List.foldl_filter]
  clear h hvalued
  generalize ([] : Assoc Text Text) = m
  induction options generalizing m with
  | nil => rfl
  | cons o options ih =>
    rw [List.foldl_cons, List.foldl_cons, addCommand_qualified hdot hlower,
      hnames o List.mem_cons_self]
    exact ih (fun o' ho' => hnames o' (List.mem_cons_of_mem o ho')) _

theorem nodup_qualified (h : TidyOptions options) :
    (Assoc.keys (options.map (qualified sectionName))).Nodup := by
  rw [Assoc.keys, List.map_map]
  refine List.pairwise_map.2 ((List.pairwise_map.1 h.nodup).imp fun hne heq => hne ?_)
  exact List.append_cancel_left heq

/-- The executables that a file names are the options with a value in its section for commands, but for
those that are named in the section that stands apart as well. -/
theorem commandsIn_flatten (htidy : s.Tidy) (hdots : s.NoDots)
    (h : s.IsCommandSection sectionName options) :
    Config.commandsIn s.flatten = valued (s.own options) := by
  obtain ⟨hmem, hlower⟩ := h.spec
  have hdot : '.' ∉ sectionName := hdots.sections _ hmem
  have hown : TidyOptions (s.own options) := (htidy.named.options _ hmem).filter _
  have hentries : s.flatten.filter isCommand = (s.own options).map (qualified sectionName) := by
    have hfilter := Assoc.filter_putAll (Text.startsWith "commands." <| Text.lower ·) [] s.entries
    have hcommands : s.entries.filter isCommand = (s.own options).map (qualified sectionName) := by
      rw [filter_entries hdots, h, List.flatMap_singleton]
    rw [flatten_eq]
    refine hfilter.trans ?_
    change Assoc.putAll [] (s.entries.filter isCommand) = _
    rw [hcommands, Assoc.putAll_of_nodup (nodup_qualified hown), List.nil_append]
  rw [← commandsIn_filter, hentries, commandsIn_qualified hdot hlower hown]

end OneSection

/-- Nothing with a value is left out exactly if nothing of that is named in the section that stands
apart. -/
theorem valued_own_eq_iff (s : Sections) (options : Options) :
    valued (s.own options) = valued options ↔ ∀ o ∈ valued options, s.defaults.has o.1 = false := by
  have hcomm : valued (s.own options) = (valued options).filter fun o => !s.defaults.has o.1 := by
    rw [valued, own, valued, List.filter_filter, List.filter_filter]
    exact List.filter_congr fun o _ => Bool.and_comm _ _
  rw [hcomm, List.filter_eq_self]
  simp only [Bool.not_eq_true']

end Sections

namespace Config

/-- The file at a path is read to its end, and these are its sections. -/
def ReadsAs (fs : Files) (path : Path) (s : Sections) : Prop :=
  ∃ content lines, fs.item? path = .ok (some (.file content)) ∧
    LineSource.ofBytes content = ⟨lines, none⟩ ∧ Sections.read lines = .ok s

theorem readOptions_of_readsAs {fs : Files} {path : Path} {s : Sections} (h : ReadsAs fs path s) :
    readOptions fs path = .ok s.flatten ∧ s.Tidy := by
  obtain ⟨content, lines, hitem, hlines, hread⟩ := h
  obtain ⟨r, hsteps, hfinish⟩ := Sections.exists_of_read hread
  refine ⟨?_, Sections.tidy_read hread⟩
  rw [readOptions_file hitem, readContent, hlines]
  simp only [hsteps, hfinish]

theorem commands_ofOptions (env : Environment) (path : Path) (options : Options) :
    (ofOptions env path options).1.commands = commandsIn options := rfl

/-- **Executables that a file names.** If no name has a dot in it and one section is that for commands,
the executables are the options of that section that have a value, under their names in lower case, but
for those that are named in the section that stands apart as well. So each of them is honoured exactly if
none of them is named there. -/
theorem load_commands {fs : Files} {path : Path} {s : Sections} {sectionName : Text}
    {options : Options} (hread : ReadsAs fs path s) (hdots : s.NoDots)
    (hsection : s.IsCommandSection sectionName options) (env : Environment) (homes : Homes) :
    ∃ c notes, load fs env homes (some path) = .ok (c, notes) ∧
      c.commands = Sections.valued (s.own options) ∧ (∀ o ∈ options, o.1.lower = o.1) ∧
      (c.commands = Sections.valued options ↔
        ∀ o ∈ Sections.valued options, s.defaults.has o.1 = false) := by
  obtain ⟨hoptions, htidy⟩ := readOptions_of_readsAs hread
  have hload : load fs env homes (some path) = .ok (ofOptions env path s.flatten) := by
    simp only [load, hoptions, pure_bind]
    rfl
  have hcommands : (ofOptions env path s.flatten).1.commands = Sections.valued (s.own options) := by
    rw [commands_ofOptions, Sections.commandsIn_flatten htidy hdots hsection]
  have hiff := Sections.valued_own_eq_iff s options
  rw [← hcommands] at hiff
  refine ⟨_, _, hload, hcommands, fun o ho => ?_, hiff⟩
  exact (htidy.named.options _ hsection.spec.1).lower o.1 (List.mem_map.2 ⟨o, ho, rfl⟩)

/-- A file in which an executable is named in the section that stands apart as well. -/
def shadowing : Bytes :=
  Utf8.encode "[DEFAULT]\nbitkeeper = x\n[Commands]\nBitKeeper = /opt/bk\ngit = git2\n"

def shadowingFiles : Files := { top := .file "cfg" shadowing .nil }

def shadowed : Options := [("bitkeeper", "/opt/bk"), ("git", "git2")]

def shadowingSections : Sections :=
  { defaults := [("bitkeeper", "x")], named := [("Commands", shadowed)] }

theorem readsAs_shadowing : ReadsAs shadowingFiles (.ofText "cfg") shadowingSections :=
  ⟨shadowing,
    ["[DEFAULT]\n", "bitkeeper = x\n", "[Commands]\n", "BitKeeper = /opt/bk\n", "git = git2\n"],
    by rfl, by decide +kernel, by rfl⟩

theorem noDots_shadowing : shadowingSections.NoDots := ⟨by decide, by decide⟩

theorem isCommandSection_shadowing :
    shadowingSections.IsCommandSection "Commands" shadowed := by
  rw [Sections.IsCommandSection]
  decide +kernel

/-- The executable that is named in one section only is honoured. -/
theorem load_commands_of_shadowing :
    ReadsAs shadowingFiles (.ofText "cfg") shadowingSections ∧ shadowingSections.NoDots ∧
      shadowingSections.IsCommandSection "Commands" shadowed ∧
      ∃ c notes, load shadowingFiles [] {} (some (.ofText "cfg")) = .ok (c, notes) ∧
        c.commands = ([("git", "git2")] : Options) := by
  obtain ⟨c, notes, hload, hcommands, -⟩ :=
    load_commands readsAs_shadowing noDots_shadowing isCommandSection_shadowing [] {}
  refine ⟨readsAs_shadowing, noDots_shadowing, isCommandSection_shadowing, c, notes, hload, ?_⟩
  rw [hcommands]
  decide

/-- An executable that is named in the section that stands apart as well is not honoured. -/
theorem not_honoured :
    ReadsAs shadowingFiles (.ofText "cfg") shadowingSections ∧ shadowingSections.NoDots ∧
      shadowingSections.IsCommandSection "Commands" shadowed ∧
      ∃ c notes, load shadowingFiles [] {} (some (.ofText "cfg")) = .ok (c, notes) ∧
        c.commands ≠ Sections.valued shadowed := by
  refine ⟨readsAs_shadowing, noDots_shadowing, isCommandSection_shadowing, _, _, rfl, ?_⟩
  decide +kernel

end Config

end Annals

import Annals.Proofs.Config.Overrides
import Annals.Proofs.Text.Numerals

/-!
# Which setting counts

Whether tags are shown, and the time limit, come from a variable, or else from an option of the section
that stands apart, under its name in upper case. No option of another section counts under such a name
(`get?_flatten`), and an option whose variable is set does not count, so these settings and the warnings
about them are the same for all files that keep the same options (`SameLimits`, `ofOptions_sameLimits`).
`load_precedence` says what they are.
-/

namespace Annals

namespace Sections

/-- The options of the section that stands apart, under their names in upper case. -/
def shown (s : Sections) : Options := s.defaults.map fun o => (o.1.upper, o.2)

/-- No two options of the section that stands apart have the same name in upper case. -/
def UpperDistinct (s : Sections) : Prop := (s.defaults.map (·.1.upper)).Nodup

instance (s : Sections) : Decidable s.UpperDistinct := inferInstanceAs (Decidable (List.Nodup _))

/-- The value of an option of the section that stands apart, given its name in upper case. -/
def setting? (s : Sections) (name : Text) : Option Text :=
  (s.defaults.find? (·.1.upper = name)).map (·.2)

theorem get?_shown (s : Sections) (name : Text) : s.shown.get? name = s.setting? name := by
  rw [Assoc.get?_eq_find?, shown, List.find?_map, Option.map_map]
  rfl

theorem putAll_shown {s : Sections} (h : s.UpperDistinct) : Assoc.putAll [] s.shown = s.shown := by
  refine Assoc.putAll_of_nodup ?_
  rw [List.nil_append, Assoc.keys, shown, List.map_map]
  exact h

/-- Of the options that count under a name without a dot, all stand in the section that stands apart. -/
theorem filter_entries_of_notMem {name : Text} (hdot : '.' ∉ name) (s : Sections) :
    s.entries.filter (·.1 = name) = s.shown.filter (·.1 = name) := by
  have hqualified : (s.named.flatMap fun e => (s.own e.2).map (qualified e.1)).filter
      (·.1 = name) = [] := by
    refine List.filter_eq_nil_iff.2 fun o ho hname => hdot ?_
    obtain ⟨e, -, ho⟩ := List.mem_flatMap.1 ho
    obtain ⟨o, -, rfl⟩ := List.mem_map.1 ho
    rw [← of_decide_eq_true hname, qualified_eq]
    exact List.mem_append_right _ List.mem_cons_self
  rw [entries, List.filter_append, hqualified, List.append_nil]
  rfl

/-- What counts under a name without a dot is told by the options that have that name in upper case. -/
theorem get?_flatten {name : Text} (hdot : '.' ∉ name) (s : Sections) :
    s.flatten.get? name = (Assoc.putAll [] (s.shown.filter (·.1 = name))).get? name := by
  have hfilter := Assoc.filter_putAll (fun other => decide (other = name)) [] s.entries
  rw [flatten_eq, ← Assoc.get?_filter]
  refine congrArg (Assoc.get? name) (hfilter.trans ?_)
  rw [filter_entries_of_notMem hdot, List.filter_nil]

theorem get?_flatten_of_upperDistinct {name : Text} (hdot : '.' ∉ name) {s : Sections}
    (h : s.UpperDistinct) : s.flatten.get? name = s.setting? name := by
  have hfilter := Assoc.filter_putAll (fun other => decide (other = name)) [] s.shown
  rw [List.filter_nil, putAll_shown h] at hfilter
  rw [get?_flatten hdot, ← hfilter, Assoc.get?_filter, get?_shown]

end Sections

namespace Config

/-- A file holds these sections, or there is no file at the path and there are no sections. -/
def Holds (fs : Files) (path : Path) (s : Sections) : Prop :=
  ReadsAs fs path s ∨
    s = {} ∧ ∃ item?, fs.item? path = .ok item? ∧ ∀ content, item? ≠ some (.file content)

/-- The first of some values that is set and not empty. -/
def firstSet (values : List (Option Text)) : Option Text := values.reduceOption.find? (!·.isEmpty)

/-- The time limit that a value asks for, if there is one, and what is warned of. No number is written
with more digits than may be read. -/
inductive Limits : Option Text → Option Int → List Note → Prop
  | unset : Limits none (some 600) []
  | positive {t : Text} {n : Int} (hwrites : t.Writes n) (hpos : 0 < n) : Limits (some t) (some n) []
  | zero {t : Text} (hwrites : t.Writes 0) : Limits (some t) none []
  | negative {t : Text} {n : Int} {note : Note} (hwrites : t.Writes n) (hneg : n < 0)
      (hwarning : note.level = .warning) : Limits (some t) (some 600) [note]
  | noNumber {t : Text} {note : Note} (hno : ∀ n, ¬t.Writes n) (hwarning : note.level = .warning) :
      Limits (some t) (some 600) [note]

/-- The notes that are shown when not tracing. -/
def warnings (notes : List Note) : List Note := notes.filter (·.isGrave)

/-- Whether a variable is set that has precedence over an option, given its name in upper case. -/
def overridden (env : Environment) (name : Text) : Bool :=
  name = tagsOption ∧ (env.value? tagsVariable).isSome ∨
    name = timeoutOption ∧ (env.value? timeoutVariable).isSome

/-- The options of the section that stands apart over which no variable has precedence. -/
def kept (env : Environment) (s : Sections) : Options :=
  s.defaults.filter fun o => !overridden env o.1.upper

/-- Two results of reading settings agree in whether tags are shown, in the time limit and in what is
warned of. -/
structure SameLimits (r r' : Config × List Note) : Prop where
  tagsEnabled : r.1.tagsEnabled = r'.1.tagsEnabled
  timeout : r.1.timeout = r'.1.timeout
  warnings : warnings r.2 = warnings r'.2

section Options

variable {env : Environment} {fs : Files} {path : Path} {s s' : Sections}

theorem firstValue_eq (a b : Option Text) : firstValue a b = firstSet [a, b] := by
  have hset (t : Text) : [t].find? (!·.isEmpty) = t.nonEmpty? := by
    cases t <;> rfl
  match a, b with
  | none, none => rfl
  | none, some b => exact (hset b).symm
  | some [], none => rfl
  | some [], some b => exact (hset b).symm
  | some (_ :: _), _ => rfl

/-- The time limit and its warnings, given the value that asks for it. -/
def limitOf : Option Text → Option Int × List Note
  | none => (some defaultTimeout, [])
  | some t => readTimeout t

theorem limits_readTimeout (t : Text) : Limits (some t) (readTimeout t).1 (readTimeout t).2 := by
  rw [readTimeout]
  cases hread : Text.readInt? t with
  | none =>
    refine .noNumber (fun n hwrites => ?_) rfl
    rw [Text.readInt?_eq_some_iff.2 hwrites] at hread
    contradiction
  | some n =>
    have hwrites := Text.readInt?_eq_some_iff.1 hread
    dsimp only
    rcases Int.lt_trichotomy n 0 with hneg | rfl | hpos
    · rw [if_pos hneg]
      exact .negative hwrites hneg rfl
    · exact .zero hwrites
    · rw [if_neg (by omega), if_neg (by omega)]
      exact .positive hwrites hpos

theorem limits_limitOf (value? : Option Text) : Limits value? (limitOf value?).1 (limitOf value?).2 := by
  cases value? with
  | none => exact .unset
  | some t => exact limits_readTimeout t

theorem Limits.one_le {value? : Option Text} {timeout : Option Int} {notes : List Note}
    (h : Limits value? timeout notes) : ∀ n ∈ timeout, 1 ≤ n := by
  intro n hn
  cases h with
  | zero => exact nomatch hn
  | positive hwrites hpos => exact Option.some.inj hn ▸ hpos
  | unset | negative | noNumber =>
    obtain rfl := Option.some.inj hn
    decide

/-- All that is noted about a value is a warning. -/
theorem Limits.warnings_eq {value? : Option Text} {timeout : Option Int} {notes : List Note}
    (h : Limits value? timeout notes) : warnings notes = notes := by
  refine List.filter_eq_self.2 fun note hnote => ?_
  cases h with
  | unset | positive | zero => exact nomatch hnote
  | negative _ _ hwarning | noNumber _ hwarning =>
    rw [List.mem_singleton.1 hnote, Note.isGrave, hwarning]
    rfl

theorem tagsEnabled_ofOptions (env : Environment) (path : Path) (options : Options) :
    (ofOptions env path options).1.tagsEnabled =
      (firstSet [env.lookup tagsVariable, options.get? tagsOption]).any readYes := by
  rw [← firstValue_eq, ofOptions]
  cases firstValue (env.lookup tagsVariable) (options.get? tagsOption) <;> rfl

theorem timeout_ofOptions (env : Environment) (path : Path) (options : Options) :
    (ofOptions env path options).1.timeout =
      (limitOf (firstSet [env.lookup timeoutVariable, options.get? timeoutOption])).1 := by
  rw [← firstValue_eq]
  rfl

theorem warnings_notes (c : Config) (path : Path) : warnings (c.notes path) = [] := rfl

theorem warnings_ofOptions (env : Environment) (path : Path) (options : Options) :
    warnings (ofOptions env path options).2 =
      (limitOf (firstSet [env.lookup timeoutVariable, options.get? timeoutOption])).2 := by
  have hnotes : (ofOptions env path options).2 =
      (limitOf (firstSet [env.lookup timeoutVariable, options.get? timeoutOption])).2 ++
        (ofOptions env path options).1.notes path := by
    rw [← firstValue_eq]
    rfl
  rw [hnotes, warnings, List.filter_append]
  refine (congrArg₂ _ (limits_limitOf _).warnings_eq (warnings_notes _ path)).trans ?_
  exact List.append_nil _

/-- What counts under a name over which no variable has precedence depends on the kept options only. -/
theorem get?_flatten_of_kept {name : Text} (hdot : '.' ∉ name) (hname : overridden env name = false)
    (h : kept env s = kept env s') : s.flatten.get? name = s'.flatten.get? name := by
  have hshown (s : Sections) : s.shown.filter (·.1 = name) =
      ((kept env s).map fun o => (o.1.upper, o.2)).filter (·.1 = name) := by
    rw [kept, Sections.shown, List.filter_map, List.filter_map, List.filter_filter]
    refine congrArg _ (List.filter_congr fun o _ => ?_)
    by_cases heq : o.1.upper = name <;> simp [heq, hname]
  rw [Sections.get?_flatten hdot, Sections.get?_flatten hdot, hshown s, hshown s', h]

theorem overridden_tagsOption (env : Environment) :
    overridden env tagsOption = (env.value? tagsVariable).isSome := by
  simp [overridden, show tagsOption ≠ timeoutOption by decide]

theorem overridden_timeoutOption (env : Environment) :
    overridden env timeoutOption = (env.value? timeoutVariable).isSome := by
  simp [overridden, show timeoutOption ≠ tagsOption by decide]

/-- What counts of a variable and its option depends on the kept options only. -/
theorem firstSet_of_kept {variableName name : Text} (hdot : '.' ∉ name)
    (hname : overridden env name = (env.value? variableName).isSome) (h : kept env s = kept env s') :
    firstSet [env.lookup variableName, s.flatten.get? name] =
      firstSet [env.lookup variableName, s'.flatten.get? name] := by
  cases hvalue : env.value? variableName with
  | none =>
    rw [hvalue] at hname
    rw [get?_flatten_of_kept hdot hname h]
  | some t =>
    rw [Environment.value?] at hvalue
    rw [← firstValue_eq, ← firstValue_eq, firstValue, firstValue, hvalue]

/-- Files that keep the same options make the same settings. -/
theorem ofOptions_sameLimits (h : kept env s = kept env s') (path path' : Path) :
    SameLimits (ofOptions env path s.flatten) (ofOptions env path' s'.flatten) := by
  have htags := firstSet_of_kept (by decide) (overridden_tagsOption env) h
  have htimeout := firstSet_of_kept (by decide) (overridden_timeoutOption env) h
  refine ⟨?_, ?_, ?_⟩
  · rw [tagsEnabled_ofOptions, tagsEnabled_ofOptions, htags]
  · rw [timeout_ofOptions, timeout_ofOptions, htimeout]
  · rw [warnings_ofOptions, warnings_ofOptions, htimeout]

theorem readOptions_of_holds (h : Holds fs path s) : readOptions fs path = .ok s.flatten := by
  rcases h with hread | ⟨rfl, item?, hitem, hno⟩
  · exact (readOptions_of_readsAs hread).1
  · exact readOptions_other hitem hno

theorem load_of_holds {homes : Homes} {path? : Option Path} (hplace : place env homes path? = .ok path)
    (h : Holds fs path s) : load fs env homes path? = .ok (ofOptions env path s.flatten) := by
  rw [load_of_place fs hplace, readOptions_of_holds h]
  rfl

end Options

/-- **Which setting counts.** If no two options that stand apart have the same name in upper case, tags
are shown if the first of their variable and their option that is not empty says yes, and the time limit
is what the first of its variable and its option asks for: no limit for zero, and the usual one, with one
warning, for what is negative or no number. A time limit is never below one second. All files that keep
the same options, whatever their other sections and what is said where a variable has precedence, make
the same of that. -/
theorem load_precedence {fs : Files} {env : Environment} {homes : Homes} {path? : Option Path}
    {path : Path} {s : Sections} (hplace : place env homes path? = .ok path) (hholds : Holds fs path s) :
    ∃ r, load fs env homes path? = .ok r ∧
      (s.UpperDistinct →
        r.1.tagsEnabled =
          (firstSet [env.lookup tagsVariable, s.setting? tagsOption]).any readYes ∧
        Limits (firstSet [env.lookup timeoutVariable, s.setting? timeoutOption]) r.1.timeout
          (warnings r.2)) ∧
      (∀ n ∈ r.1.timeout, 1 ≤ n) ∧
      ∀ fs' homes' path?' path' s', place env homes' path?' = .ok path' → Holds fs' path' s' →
        kept env s = kept env s' → ∃ r', load fs' env homes' path?' = .ok r' ∧ SameLimits r r' := by
  refine ⟨_, load_of_holds hplace hholds, fun hdistinct => ⟨?_, ?_⟩, ?_, ?_⟩
  · rw [tagsEnabled_ofOptions, Sections.get?_flatten_of_upperDistinct (by decide) hdistinct]
  · rw [timeout_ofOptions, warnings_ofOptions,
      Sections.get?_flatten_of_upperDistinct (by decide) hdistinct]
    exact limits_limitOf _
  · rw [timeout_ofOptions]
    exact (limits_limitOf _).one_le
  · intro fs' homes' path?' path' s' hplace' hholds' hkept
    exact ⟨_, load_of_holds hplace' hholds', ofOptions_sameLimits hkept path path'⟩

/-- A file whose options are all kept, and one that says nothing where a variable has precedence. -/
def keptFiles : Bytes × Bytes :=
  (Utf8.encode "[DEFAULT]\ntags_enabled = Yes\nCOMMAND_TIMEOUT = soon\n[a]\nx = 1\n",
    Utf8.encode "[DEFAULT]\nTAGS_ENABLED = Yes\n")

/-- A limit of zero in a variable counts, whatever a file asks for. -/
theorem load_precedence_of_zero :
    let env : Environment := [(timeoutVariable, "0")]
    let path : Path := .ofText "cfg"
    let s : Sections :=
      { defaults := [("tags_enabled", "Yes"), ("command_timeout", "soon")]
        named := [("a", [("x", "1")])] }
    let s' : Sections := { defaults := [("tags_enabled", "Yes")] }
    place env {} (some path) = .ok path ∧ Holds (worldOf keptFiles.1).files path s ∧
      Holds (worldOf keptFiles.2).files path s' ∧ s.UpperDistinct ∧ kept env s = kept env s' ∧
      ∃ r r', load (worldOf keptFiles.1).files env {} (some path) = .ok r ∧
        load (worldOf keptFiles.2).files env {} (some path) = .ok r' ∧ r.1.tagsEnabled = true ∧
        Limits (some "0") r.1.timeout (warnings r.2) ∧ SameLimits r r' := by
  intro env path s s'
  have hplace : place env {} (some path) = .ok path := rfl
  have hholds : Holds (worldOf keptFiles.1).files path s :=
    .inl ⟨keptFiles.1,
      ["[DEFAULT]\n", "tags_enabled = Yes\n", "COMMAND_TIMEOUT = soon\n", "[a]\n", "x = 1\n"],
      by rfl, by decide +kernel, by rfl⟩
  have hholds' : Holds (worldOf keptFiles.2).files path s' :=
    .inl ⟨keptFiles.2, ["[DEFAULT]\n", "TAGS_ENABLED = Yes\n"], by rfl, by decide +kernel, by rfl⟩
  have hdistinct : s.UpperDistinct := by decide +kernel
  have hkept : kept env s = kept env s' := by decide +kernel
  obtain ⟨r, hload, hsettings, -, hsame⟩ := load_precedence hplace hholds
  obtain ⟨htags, hlimits⟩ := hsettings hdistinct
  obtain ⟨r', hload', hagree⟩ := hsame _ _ _ path s' hplace hholds' hkept
  have hyes : r.1.tagsEnabled = true := by rw [htags]; decide +kernel
  exact ⟨hplace, hholds, hholds', hdistinct, hkept, r, r', hload, hload', hyes, hlimits, hagree⟩

end Config

end Annals

import Annals.Proofs.Discovery.Collecting

/-!
# The order of registration

What the registry is after any calls that add and remove kinds, told by the calls alone. A kind is
registered if one of them registered it and none removed it since (`IsRegistered`); the call by which it
came in is the one of these before which it was not registered (`EntersAt`); and its backend is that of
the last call about it (`IsLatest`). `Reflects` says that a registry holds the kinds in the order in which
they came in, each with its backend. One more call preserves it (`Reflects.perform`), so it holds after any
number of calls.

A directory is the repository of the first kind in this order whose marker is seen there, exactly if every
marker up to that one can be looked for (`registration_ordered`). A marker that cannot be looked for hides
those after it (`not_probesInOrder`).
-/

namespace Annals

namespace Registry

/-! ## Calls -/

/-- A change of the registry. -/
inductive Call where
  | register (kind : Text) (factory : Factory)
  | unregister (kind : Text)
  deriving DecidableEq, Repr

/-- The kind that a call is about. -/
def Call.kind : Call → Text
  | register kind _ => kind
  | unregister kind => kind

def perform (reg : Registry) : Call → Registry
  | .register kind factory => reg.register kind factory
  | .unregister kind => reg.unregister kind

/-- The registry after calls one after the other. -/
def performAll (reg : Registry) (calls : List Call) : Registry := calls.foldl perform reg

/-- The calls that make the registry at the start of the program. -/
def initialCalls : List Call :=
  [.register Backend.bitkeeper.kind (.ofBackend .bitkeeper),
    .register Backend.git.kind (.ofBackend .git)]

theorem performAll_initialCalls : performAll [] initialCalls = builtin := by decide

/-- What is done later comes on top. -/
theorem performAll_builtin (calls : List Call) :
    builtin.performAll calls = performAll [] (initialCalls ++ calls) := by
  rw [← performAll_initialCalls]
  exact List.foldl_append.symm

/-! ## What calls say of a kind -/

variable {opens : List Call → Call → Prop} {keeps : Call → Prop} {calls : List Call} {call : Call}
  {kind : Text} {factory : Factory} {n : Nat}

/-- Whether what one of some calls has opened is kept by all calls after it. What a call opens may depend
on the calls before it. -/
def Stands (opens : List Call → Call → Prop) (keeps : Call → Prop) (calls : List Call) : Prop :=
  ∃ before call after, calls = before ++ call :: after ∧ opens before call ∧ ∀ later ∈ after, keeps later

theorem not_stands_nil : ¬Stands opens keeps [] := by
  rintro ⟨before, call, after, h, -⟩
  exact List.append_ne_nil_of_right_ne_nil before (List.cons_ne_nil call after) h.symm

/-- After one more call, something stands that it has opened, or that stood before and that it keeps. -/
theorem stands_concat : Stands opens keeps (calls ++ [call]) ↔
    opens calls call ∨ keeps call ∧ Stands opens keeps calls := by
  constructor
  · rintro ⟨before, first, after, h, hopens, hkeeps⟩
    rcases List.eq_nil_or_concat after with rfl | ⟨after, last, rfl⟩
    · obtain ⟨rfl, hlast⟩ := List.append_inj' h rfl
      obtain rfl := List.singleton_inj.mp hlast
      exact Or.inl hopens
    · rw [List.concat_eq_append, ← List.cons_append, ← List.append_assoc] at h
      obtain ⟨rfl, hlast⟩ := List.append_inj' h rfl
      obtain rfl := List.singleton_inj.mp hlast
      rw [List.concat_eq_append, List.forall_mem_append, List.forall_mem_singleton] at hkeeps
      exact Or.inr ⟨hkeeps.2, before, first, after, rfl, hopens, hkeeps.1⟩
  · rintro (hopens | ⟨hkeeps, before, first, after, rfl, hopens, hafter⟩)
    · exact ⟨calls, call, [], rfl, hopens, nofun⟩
    · refine ⟨before, first, after ++ [call], by rw [List.append_assoc, List.cons_append], hopens, ?_⟩
      exact List.forall_mem_append.mpr ⟨hafter, List.forall_mem_singleton.mpr hkeeps⟩

/-- Whether a kind was registered and not removed since. -/
def IsRegistered (kind : Text) : List Call → Prop :=
  Stands (fun _ call => ∃ factory, call = .register kind factory) (· ≠ .unregister kind)

/-- Whether a kind came in by the call at a position: the first that registered it since it was last
removed, if it ever was. -/
def EntersAt (kind : Text) (n : Nat) : List Call → Prop :=
  Stands (fun before call => before.length = n ∧ (∃ factory, call = .register kind factory) ∧
    ¬IsRegistered kind before) (· ≠ .unregister kind)

/-- Whether the last call about a kind registered it with a backend. -/
def IsLatest (kind : Text) (factory : Factory) : List Call → Prop :=
  Stands (fun _ call => call = .register kind factory) (·.kind ≠ kind)

theorem isRegistered_concat : IsRegistered kind (calls ++ [call]) ↔
    (∃ factory, call = .register kind factory) ∨ call ≠ .unregister kind ∧ IsRegistered kind calls :=
  stands_concat

theorem entersAt_concat : EntersAt kind n (calls ++ [call]) ↔
    (calls.length = n ∧ (∃ factory, call = .register kind factory) ∧ ¬IsRegistered kind calls) ∨
      call ≠ .unregister kind ∧ EntersAt kind n calls :=
  stands_concat

theorem isLatest_concat : IsLatest kind factory (calls ++ [call]) ↔
    call = .register kind factory ∨ call.kind ≠ kind ∧ IsLatest kind factory calls :=
  stands_concat

/-- A kind that is registered came in by some call. -/
theorem exists_entersAt_iff : (∃ n, EntersAt kind n calls) ↔ IsRegistered kind calls := by
  induction calls using List.reverseRecOn with
  | nil => exact iff_of_false (fun ⟨n, h⟩ => not_stands_nil h) not_stands_nil
  | append_singleton calls call ih =>
    simp only [entersAt_concat, isRegistered_concat, exists_or, exists_and_left, ih]
    by_cases hkind : IsRegistered kind calls
    · have hother (h : ∃ factory, call = .register kind factory) : call ≠ .unregister kind := by
        rintro rfl
        exact nomatch h
      simp only [hkind, not_true_eq_false, and_false, exists_false, and_true, false_or]
      exact ⟨Or.inr, fun h => h.elim hother id⟩
    · simp [hkind]

theorem EntersAt.lt_length (h : EntersAt kind n calls) : n < calls.length := by
  obtain ⟨before, call, after, rfl, ⟨rfl, -⟩, -⟩ := h
  rw [List.length_append, List.length_cons]
  omega

/-- A kind that was registered keeps its place. -/
theorem EntersAt.of_concat (h : EntersAt kind n (calls ++ [call])) (hkind : IsRegistered kind calls) :
    EntersAt kind n calls := by
  rcases entersAt_concat.mp h with ⟨-, -, hnot⟩ | ⟨-, hold⟩
  · exact absurd hkind hnot
  · exact hold

/-! ## One call -/

section Kinds

variable {reg : Registry}

theorem mem_kinds_register {other : Text} :
    other ∈ (reg.register kind factory).kinds ↔ other = kind ∨ other ∈ reg.kinds := by
  rw [kinds, register, Assoc.keys_put]
  split
  · next hkind =>
    refine ⟨Or.inr, ?_⟩
    rintro (rfl | hother)
    · exact hkind
    · exact hother
  · rw [List.mem_append, List.mem_singleton, or_comm]
    rfl

/-- A kind that is registered again keeps its place. -/
theorem kinds_register_of_mem (h : kind ∈ reg.kinds) (factory : Factory) :
    (reg.register kind factory).kinds = reg.kinds := by
  rw [kinds, register, Assoc.keys_put]
  exact if_pos h

theorem factory_of_notMem (h : kind ∉ reg.kinds) : reg.factory kind = .error (.unknownKind kind) := by
  rw [Registry.factory, Assoc.get?_eq_none_iff.mpr h]

end Kinds

/-! ## The registry after calls -/

/-- Whether a registry holds the kinds that are registered after some calls, in the order in which they
came in, and each with the backend of the last call about it. -/
structure Reflects (reg : Registry) (calls : List Call) : Prop where
  nodup : reg.kinds.Nodup
  mem_iff : ∀ kind, kind ∈ reg.kinds ↔ IsRegistered kind calls
  ordered : reg.kinds.Pairwise fun k l => ∀ m n, EntersAt k m calls → EntersAt l n calls → m < n
  latest : ∀ kind factory, Assoc.get? kind reg = some factory ↔ IsLatest kind factory calls

namespace Reflects

variable {reg : Registry}

theorem nil : Reflects [] [] where
  nodup := List.nodup_nil
  mem_iff _ := iff_of_false List.not_mem_nil not_stands_nil
  ordered := .nil
  latest _ _ := iff_of_false nofun not_stands_nil

/-- Kinds that stay have come in in the same order. -/
theorem ordered_concat (h : Reflects reg calls) (call : Call) {kinds : List Text}
    (hkinds : kinds.Sublist reg.kinds) :
    kinds.Pairwise fun k l =>
      ∀ m n, EntersAt k m (calls ++ [call]) → EntersAt l n (calls ++ [call]) → m < n := by
  refine (h.ordered.sublist hkinds).imp_of_mem fun {k l} hk hl hlt m n hm hn => ?_
  have hk := (h.mem_iff k).mp (hkinds.subset hk)
  have hl := (h.mem_iff l).mp (hkinds.subset hl)
  exact hlt m n (hm.of_concat hk) (hn.of_concat hl)

theorem register (h : Reflects reg calls) (kind : Text) (factory : Factory) :
    Reflects (reg.register kind factory) (calls ++ [.register kind factory]) where
  nodup := Assoc.nodup_keys_put kind factory h.nodup
  mem_iff other := by
    rw [isRegistered_concat, ← h.mem_iff, mem_kinds_register]
    simp [eq_comm]
  ordered := by
    rw [kinds, Registry.register, Assoc.keys_put]
    split
    · exact h.ordered_concat _ (List.Sublist.refl _)
    · next hnew =>
      refine List.pairwise_append.mpr
        ⟨h.ordered_concat _ (List.Sublist.refl _), List.pairwise_singleton _ _, ?_⟩
      intro k hk l hl m n hm hn
      obtain rfl := List.mem_singleton.mp hl
      -- the new kind comes in by the last call, and all others came in before
      have hlt := (hm.of_concat ((h.mem_iff k).mp hk)).lt_length
      rcases entersAt_concat.mp hn with ⟨rfl, -⟩ | ⟨-, hold⟩
      · exact hlt
      · exact absurd ((h.mem_iff l).mpr (exists_entersAt_iff.mp ⟨n, hold⟩)) hnew
  latest other f := by
    rw [isLatest_concat, ← h.latest, Registry.register, Assoc.get?_put, Call.kind]
    by_cases hother : kind = other
    · simp [hother]
    · simp [hother]

theorem unregister (h : Reflects reg calls) (kind : Text) :
    Reflects (reg.unregister kind) (calls ++ [.unregister kind]) := by
  have hkeys : (reg.unregister kind).kinds = reg.kinds.filter (· ≠ kind) :=
    Assoc.keys_remove kind h.nodup
  refine ⟨?_, fun other => ?_, ?_, fun other f => ?_⟩
  · rw [hkeys]
    exact h.nodup.filter _
  · have hcall : Call.unregister kind ≠ .unregister other ↔ other ≠ kind := by simp [eq_comm]
    rw [isRegistered_concat, ← h.mem_iff, hkeys, List.mem_filter, hcall, and_comm]
    simp
  · rw [hkeys]
    exact h.ordered_concat _ List.filter_sublist
  · rw [isLatest_concat, ← h.latest, Registry.unregister, Assoc.get?_remove h.nodup, Call.kind]
    by_cases hother : kind = other
    · simp [hother]
    · simp [hother]

/-- One more call. -/
theorem perform (h : Reflects reg calls) (call : Call) :
    Reflects (reg.perform call) (calls ++ [call]) := by
  cases call with
  | register kind factory => exact h.register kind factory
  | unregister kind => exact h.unregister kind

/-- Any number of calls. -/
theorem performAll (calls : List Call) : Reflects (Registry.performAll [] calls) calls := by
  induction calls using List.reverseRecOn with
  | nil => exact .nil
  | append_singleton calls call ih =>
    rw [Registry.performAll, List.foldl_append]
    exact ih.perform call

theorem factory_eq_ok_iff (h : Reflects reg calls) :
    reg.factory kind = .ok factory ↔ IsLatest kind factory calls := by
  rw [← h.latest, Registry.factory]
  cases Assoc.get? kind reg <;> simp

end Reflects

end Registry

/-! ## Probing -/

/-- Whether a marker is seen in a directory. -/
def Marker.isSeen (m : Marker) (fs : Files) (dir : Path) : Bool := (m.isAt fs dir).toOption = some true

theorem Marker.isSeen_of_isPresent {m : Marker} {fs : Files} {dir : Path} (h : m.IsPresent fs dir) :
    m.isSeen fs dir = true := by
  rw [isSeen, isAt_eq_true_iff.mpr h]
  rfl

theorem Marker.isSeen_of_isAbsent {m : Marker} {fs : Files} {dir : Path} (h : m.IsAbsent fs dir) :
    m.isSeen fs dir = false := by
  rw [isSeen, isAt_eq_false_iff.mpr h]
  rfl

namespace Registry

variable {reg : Registry} {fs : Files} {config : Config} {dir : Path}

/-- Whether a directory is found to be the repository of the first kind whose marker is seen there, and of
none if no marker is. -/
def ProbesInOrder (reg : Registry) (fs : Files) (config : Config) (dir : Path) : Prop :=
  reg.repositoryFor fs config dir =
    .ok ((reg.find? fun f => f.2.marker.isSeen fs dir).map (foundBy config dir))

/-- Of the markers only those are looked for that come before one that is seen. -/
theorem probesInOrder_iff : reg.ProbesInOrder fs config dir ↔ reg.CanTell fs dir := by
  constructor
  · intro h
    by_contra hnot
    obtain ⟨fault, hfault⟩ := repositoryFor_of_not_canTell config hnot
    exact nomatch hfault.symm.trans h
  · rintro (⟨f, howns⟩ | hbare)
    · have hfound := repositoryFor_of_owns config howns
      obtain ⟨earlier, later, rfl, hseen, hunseen⟩ := howns
      have hearlier : earlier.find? (fun g => g.2.marker.isSeen fs dir) = none :=
        List.find?_eq_none.mpr fun g hg => by simp [Marker.isSeen_of_isAbsent (hunseen g hg)]
      have hself := Marker.isSeen_of_isPresent hseen
      simp only [ProbesInOrder, hfound, List.find?_append, hearlier, Option.none_or, List.find?_cons, hself,
        Option.map_some]
    · have hnone : reg.find? (fun f => f.2.marker.isSeen fs dir) = none :=
        List.find?_eq_none.mpr fun f hf => by simp [Marker.isSeen_of_isAbsent (hbare f hf)]
      rw [ProbesInOrder, repositoryFor_of_isBare config hbare, hnone]
      rfl

/-- After any calls the kinds are in the order in which they came in, each with the backend of the last
call about it, and a directory is the repository of the first of them whose marker is seen there, exactly
if it can be told what that is. -/
theorem registration_ordered (calls : List Call) (fs : Files) (config : Config) (dir : Path) :
    let reg := builtin.performAll calls
    let all := initialCalls ++ calls
    (reg.kinds.Nodup ∧ (∀ kind, kind ∈ reg.kinds ↔ ∃ n, EntersAt kind n all) ∧
      reg.kinds.Pairwise fun k l => ∀ m n, EntersAt k m all → EntersAt l n all → m < n) ∧
    ((∀ kind ∈ reg.kinds, ∀ factory, (reg.register kind factory).kinds = reg.kinds) ∧
      ∀ kind, kind ∉ reg.kinds → reg.unregister kind = reg) ∧
    ((∀ kind factory, reg.factory kind = .ok factory ↔ IsLatest kind factory all) ∧
      ∀ kind, kind ∉ reg.kinds → ∃ f, reg.factory kind = .error f ∧ f.kind = .key) ∧
    (reg.ProbesInOrder fs config dir ↔ reg.CanTell fs dir) ∧
    (¬reg.CanTell fs dir → ∃ fault, reg.repositoryFor fs config dir = .error fault) := by
  intro reg all
  have hreflects : Reflects reg all := by
    rw [show reg = performAll [] all from performAll_builtin calls]
    exact .performAll all
  refine ⟨⟨hreflects.nodup, fun kind => ?_, hreflects.ordered⟩, ⟨?_, ?_⟩, ⟨?_, ?_⟩, probesInOrder_iff,
    repositoryFor_of_not_canTell config⟩
  · rw [hreflects.mem_iff, exists_entersAt_iff]
  · exact fun kind hkind factory => kinds_register_of_mem hkind factory
  · exact fun kind hkind => Assoc.remove_of_notMem hkind
  · exact fun kind factory => hreflects.factory_eq_ok_iff
  · exact fun kind hkind => ⟨_, factory_of_notMem hkind, rfl⟩

/-- A kind that was removed comes back at the end. -/
example :
    let cvs : Factory := ⟨"cvs", ⟨.ofText "CVS", true⟩, .git⟩
    let calls : List Call :=
      [.register "cvs" cvs, .unregister "bitkeeper", .register "git" cvs,
        .register "bitkeeper" (.ofBackend .bitkeeper)]
    let reg := builtin.performAll calls
    reg.kinds = ["git".toList, "cvs".toList, "bitkeeper".toList] ∧ reg.factory "git" = .ok cvs := by
  decide

/-- A marker that cannot be looked for hides the marker of the next kind. -/
theorem not_probesInOrder :
    ¬∀ (calls : List Call) (fs : Files) (config : Config) (dir : Path),
      (builtin.performAll calls).ProbesInOrder fs config dir := by
  intro h
  let target : Text := List.replicate 256 'x'
  let fs : Files :=
    { top := .dir "T" (.dir "r" (.link ".bk" target (.dir ".git" .nil .nil)) .nil) .nil
      current := .ofText "/T" }
  have hfault : (builtin.performAll []).repositoryFor fs {} (.ofText "r") = .error (.tooLong "r/.bk") := by
    decide +kernel
  exact nomatch hfault.symm.trans (h [] fs {} (.ofText "r"))

end Registry

end Annals

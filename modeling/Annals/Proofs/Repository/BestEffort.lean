import Annals.Proofs.Repository.Probing

/-!
# Operations that do not fail with the tool

Some operations answer whatever becomes of the tool: with what is made of an exit with status 0, and with a
fallback if there is none. `bestEffort` says which, and how many errors are noted on the way. `Work.Gives`
states the same of an action in a session; it is closed under the steps that actions are made of, so that
each operation is taken apart once. Only a command that is rejected makes them fail (`Work.Answers`). The
answers in a whole session are put together in `session_bestEffort`.
-/

namespace Annals

/-- What a best-effort operation gives once its command has ended or not come to an end, and how many
errors it notes: what is made of an exit with status 0, or a fallback with one error. An exit may also
excuse itself. -/
def bestEffort {α : Type} (fallback : α) (excuses : Exit → Bool) (value : Exit → α) :
    Except ProcessFailure Exit → α × Nat
  | .error _ => (fallback, 1)
  | .ok e => if e.code = 0 then (value e, 0) else (fallback, if excuses e then 0 else 1)

namespace Work

variable {α β : Type} {s s' : Session} {x : Work α} {g : α → Work β}

/-- Whether an action succeeds in a session with an answer, after as many errors as are said. -/
def Gives (x : Work α) (s : Session) (answer : α × Nat) : Prop :=
  ∃ s' notes, x.runOn s = (.ok answer.1, s') ∧ s'.notes = s.notes ++ notes ∧
    notes.countP Note.isError = answer.2

theorem gives_pure (a : α) (s : Session) : Gives (pure a : Work α) s (a, 0) :=
  ⟨s, [], rfl, (List.append_nil _).symm, rfl⟩

theorem gives_of_quiet {notes : List Note} {a : α} (hx : x.runOn s = (.ok a, s'))
    (hnotes : s'.notes = s.notes ++ notes) (hquiet : ∀ note ∈ notes, note.isError = false) :
    x.Gives s (a, 0) := by
  refine ⟨s', notes, hx, hnotes, List.countP_eq_zero.mpr fun note hmem => ?_⟩
  rw [hquiet note hmem]
  exact Bool.false_ne_true

theorem Gives.bind {a : α} {b : β} {m n : Nat} (hx : x.Gives s (a, m))
    (hg : (g a).Gives (x.runOn s).2 (b, n)) : (x >>= g).Gives s (b, m + n) := by
  obtain ⟨s₁, first, hrun, hfirst, hm⟩ := hx
  rw [hrun] at hg
  obtain ⟨s₂, second, hrun', hsecond, hn⟩ := hg
  refine ⟨s₂, first ++ second, ?_, ?_, ?_⟩
  · rw [runOn_bind_of_ok hrun, hrun']
  · rw [hsecond, hfirst, List.append_assoc]
  · rw [List.countP_append, hm, hn]

/-- What is done before an action without an error does not change its answer. -/
theorem Gives.after_quiet {a : α} {answer : β × Nat} (hx : x.Gives s (a, 0))
    (hg : (g a).Gives (x.runOn s).2 answer) : (x >>= g).Gives s answer := by
  have hboth := hx.bind hg
  rwa [Nat.zero_add] at hboth

theorem Gives.map {a : α} {n : Nat} (hx : x.Gives s (a, n)) (f : α → β) :
    Gives (do return f (← x)) s (f a, n) :=
  hx.bind (n := 0) (gives_pure (f a) _)

/-- Whether an action succeeds with an answer as is said, or fails since a command cannot be run. -/
def Answers (x : Work α) (s : Session) : Except CommandFault (α × Nat) → Prop
  | .ok answer => x.Gives s answer
  | .error fault => (x.runOn s).1 = .error (.badCommand fault)

theorem Answers.map {answer : Except CommandFault (α × Nat)} (hx : x.Answers s answer) (f : α → β) :
    Answers (do return f (← x)) s (answer.map fun a => (f a.1, a.2)) := by
  cases answer with
  | ok answer => exact Gives.map hx f
  | error fault =>
    have hx : (x.runOn s).1 = .error (.badCommand fault) := hx
    have hfails : Work.runOn (do return f (← x)) s = (.error (.badCommand fault), (x.runOn s).2) :=
      runOn_bind_of_error (Prod.ext hx rfl) _
    exact congrArg Prod.fst hfails

/-- What is done before an action without an error does not change its answer. -/
theorem Answers.after_quiet {a : α} {answer : Except CommandFault (β × Nat)} (hx : x.Gives s (a, 0))
    (hg : (g a).Answers (x.runOn s).2 answer) : (x >>= g).Answers s answer := by
  cases answer with
  | ok answer => exact Gives.after_quiet hx hg
  | error fault =>
    obtain ⟨s₁, notes, hrun, -⟩ := hx
    have hg : ((g a).runOn (x.runOn s).2).1 = .error (.badCommand fault) := hg
    rw [hrun] at hg
    change ((x >>= g).runOn s).1 = _
    rw [runOn_bind_of_ok hrun, hg]

/-- An action that answers fails only since a command cannot be run. -/
theorem Answers.eq_badCommand {answer : Except CommandFault (α × Nat)} {f : Failure}
    (hx : x.Answers s answer) (hf : (x.runOn s).1 = .error f) : ∃ fault, f = .badCommand fault := by
  cases answer with
  | ok answer =>
    obtain ⟨s', -, hrun, -⟩ := hx
    rw [hrun] at hf
    contradiction
  | error fault => exact ⟨fault, Except.error.inj (hf.symm.trans hx)⟩

end Work

namespace Repository

open Work

variable (r : Repository) (w : World) (s : Session)

/-! ## Steps -/

section Steps

variable {r w s} {α σ : Type} {dir? : Option Path} {args : List Text} {fallback : α}
  {excuses : Exit → Bool} {value : Exit → α}

theorem gives_debug (text : Text) : (r.debug text).Gives s ((), 0) := ⟨_, _, rfl, rfl, rfl⟩

theorem gives_complain (text : Text) : (r.complain text).Gives s ((), 1) := ⟨_, _, rfl, rfl, rfl⟩

theorem gives_complain_pure (text : Text) (a : α) (s : Session) :
    Gives (do r.complain text; return a) s (a, 1) :=
  (gives_complain text).bind (n := 0) (gives_pure a _)

theorem gives_debug_pure (text : Text) (a : α) (s : Session) :
    Gives (do r.debug text; return a) s (a, 0) :=
  (gives_debug text).bind (n := 0) (gives_pure a _)

theorem gives_ite {b : Bool} {a : α} {m n : Nat} {x y : Work α} (hx : x.Gives s (a, m))
    (hy : y.Gives s (a, n)) : Gives (if b then x else y) s (a, if b then m else n) := by
  cases b with
  | true => exact hx
  | false => exact hy

/-- An operation goes on with status 0, and otherwise gives its fallback. -/
theorem gives_of_status {e : Exit} {x y : Work α} (hx : x.Gives s (value e, 0))
    (hy : y.Gives s (fallback, if excuses e then 0 else 1)) :
    Gives (if e.code = 0 then x else y) s (bestEffort fallback excuses value (.ok e)) := by
  rw [bestEffort]
  split
  · exact hx
  · exact hy

/-- An operation that captures the output answers by how its command ends. -/
theorem answers_capture {g : Except ProcessFailure Result → Work α}
    (hcause : ∀ cause s', (g (.error cause)).Gives s' (fallback, 1))
    (hexit : ∀ (e : Exit) s', (g (.ok ⟨e.code, e.stdout, Utf8.decode e.stderr⟩)).Gives s'
      (bestEffort fallback excuses value (.ok e))) :
    let c := r.toolCommand w s dir? args
    (r.capture w dir? args >>= g).Answers s
      ((c.ending c.timeout (w.outcome s.runs c.argv)).map (bestEffort fallback excuses value)) := by
  intro c
  let out := c.capture (w.outcome s.runs c.argv)
  have hcapture : (r.capture w dir? args).runOn s = (out.result.mapError .badCommand,
      { r.knowing w s with runs := s.runs ++ [out.run], notes := s.notes ++ out.notes }) :=
    r.runOn_capture w s dir? args
  have hresult : out.result = _ := c.result_capture (w.outcome s.runs c.argv)
  rw [hresult] at hcapture
  cases hending : c.ending c.timeout (w.outcome s.runs c.argv) with
  | error fault =>
    rw [hending] at hcapture
    exact congrArg Prod.fst (runOn_bind_of_error hcapture g)
  | ok ended =>
    rw [hending] at hcapture
    refine (gives_of_quiet hcapture rfl (c.not_isError_capture _)).after_quiet ?_
    cases ended with
    | error cause => exact hcause cause _
    | ok e => exact hexit e _

/-- So does one that streams it to a handler that takes every line. -/
theorem answers_stream {feed : σ → Text → Fed σ Failure} {init : σ}
    {g : σ × Except ProcessFailure Result → Work α}
    (hquiet : ∀ state line, ∀ note ∈ (feed state line).notes, note.isError = false)
    (haccepts : ∀ e, (w.outcome s.runs (r.toolCommand w s dir? args).argv).Prints e →
      (Fed.all feed init (textLines e.stdout)).failure? = none)
    (hcause : ∀ state cause s', (g (state, .error cause)).Gives s' (fallback, 1))
    (hexit : ∀ (e : Exit) s', (g ((Fed.all feed init (textLines e.stdout)).state,
      .ok ⟨e.code, [], Utf8.decode e.stderr⟩)).Gives s' (bestEffort fallback excuses value (.ok e))) :
    let c := r.toolCommand w s dir? args
    (r.stream w dir? args feed init >>= g).Answers s
      ((c.ending c.streamLimit? (w.outcome s.runs c.argv)).map (bestEffort fallback excuses value)) := by
  intro c
  have htaken : ((w.outcome s.runs c.argv).exit?.bind fun e =>
      (Fed.all feed init (textLines e.stdout)).failure?) = none := by
    rw [Option.bind_eq_none_iff]
    exact fun e he => haccepts e (Outcome.exit?_eq_some_iff.mp he)
  let out := c.stream (w.outcome s.runs c.argv) feed init
  have hresult : out.result = (c.ending c.streamLimit? (w.outcome s.runs c.argv)).map fun ended =>
      .ok (ended.map fun e => ⟨e.code, [], Utf8.decode e.stderr⟩) := by
    rw [c.result_stream_eq, htaken]
  have hstream : (r.stream w dir? args feed init).runOn s =
      (out.answer, { r.knowing w s with runs := s.runs ++ [out.run], notes := s.notes ++ out.notes }) :=
    r.runOn_stream w s dir? args feed init
  have hnotes : ∀ note ∈ out.notes, note.isError = false :=
    c.not_isError_stream _ (Fed.forall_mem_notes_all hquiet init)
  rw [Streamed.answer, hresult] at hstream
  cases hending : c.ending c.streamLimit? (w.outcome s.runs c.argv) with
  | error fault =>
    rw [hending] at hstream
    exact congrArg Prod.fst (runOn_bind_of_error hstream g)
  | ok ended =>
    rw [hending] at hstream
    refine (gives_of_quiet hstream rfl hnotes).after_quiet ?_
    cases ended with
    | error cause => exact hcause _ cause _
    | ok e =>
      have hend := (c.ending_eq_ok_iff c.streamLimit?).mp hending
      have hstate : out.state = _ := c.state_stream hend.prints feed init
      rw [hstate]
      exact hexit e _

end Steps

/-! ## Tracked files and contents -/

/-- Whether an exit with status 0 says that a file is tracked. -/
def saysTracked (b : Backend) (name : Text) (e : Exit) : Bool :=
  match b with
  | .bitkeeper => (Utf8.decode e.stdout).trim = name
  | .git => true

/-- Whether an exit with another status only says that a file is not tracked. -/
def saysUntracked (b : Backend) (e : Exit) : Bool :=
  match b with
  | .bitkeeper => false
  | .git => Text.occursIn untrackedMessage (Utf8.decode e.stderr)

def trackingCommand (file : Path) : Command :=
  let file := w.files.absolute file
  r.toolCommand w s (some file.parent) (trackingArgs r.backend file.name)

def contentCommand (dir : Path) (name : Text) (revision? : Option Text) : Command :=
  r.toolCommand w s (some (w.files.absolute dir)) (contentArgs r.backend name revision?)

theorem answers_isTracked (file : Path) :
    let c := r.trackingCommand w s file
    (r.isTracked w file).Answers s ((c.ending c.timeout (w.outcome s.runs c.argv)).map
      (bestEffort false (saysUntracked r.backend)
        (saysTracked r.backend (w.files.absolute file).name))) := by
  obtain ⟨backend, root, config⟩ := r
  cases backend with
  | bitkeeper =>
    apply answers_capture
    · intro cause s'
      exact gives_complain_pure _ false s'
    · intro e s'
      exact gives_of_status (gives_pure _ s') (gives_complain_pure _ false s')
  | git =>
    apply answers_capture
    · intro cause s'
      exact gives_complain_pure _ false s'
    · intro e s'
      apply gives_of_status
      · exact gives_pure _ s'
      · exact gives_ite (gives_debug_pure _ false s') (gives_complain_pure _ false s')

theorem answers_content (dir : Path) (name : Text) (revision? : Option Text) :
    let c := r.contentCommand w s dir name revision?
    (r.content w dir name revision?).Answers s ((c.ending c.timeout (w.outcome s.runs c.argv)).map
      (bestEffort none (fun _ => false) fun e => some e.stdout)) := by
  apply answers_capture
  · intro cause s'
    exact gives_complain_pure _ none s'
  · intro e s'
    exact gives_of_status (gives_pure _ s') (gives_complain_pure _ none s')

/-! ## Tags -/

end Repository

namespace Backend

/-- What a listing of tags by a command gives, and how many errors it notes. -/
def bestListing (b : Backend) (c : Command) (o : Outcome) : Except CommandFault (List Tag × Nat) :=
  (c.ending c.streamLimit? o).map
    (bestEffort [] (fun _ => false) fun e => (b.readTags (textLines e.stdout)).result)

/-- Whether the dates of all tags that are printed stay in the years 1 to 9999 in UTC. -/
def PrintsInRange (b : Backend) (o : Outcome) : Prop :=
  ∀ e, o.Prints e → ∀ line ∈ textLines e.stdout, ¬b.TagOverflows line

theorem working_statusFrom (b : Backend) (run : Run) (o : Outcome) :
    (b.statusFrom run o).map (fun status => (status.working, 0)) =
      (run.command.printed? o).map fun text? => (text?.isSome, 0) := by
  unfold statusFrom
  rcases run.command.printed? o with fault | _ | text <;> rfl

theorem version_statusFrom (b : Backend) (run : Run) (o : Outcome) :
    (b.statusFrom run o).map (fun status => (status.version, 0)) =
      (run.command.printed? o).map fun text? => ((text?.map b.banner.version).getD .oldest, 0) := by
  unfold statusFrom
  rcases run.command.printed? o with fault | _ | text <;> rfl

theorem PrintsInRange.failure? {b : Backend} {o : Outcome} (h : b.PrintsInRange o) {e : Exit}
    (hprints : o.Prints e) : (b.readTags (textLines e.stdout)).failure? = none := by
  rw [failure?_readTags, if_neg]
  rintro ⟨line, hline, hoverflows⟩
  exact h e hprints line hline hoverflows

end Backend

namespace Repository

open Work

variable (r : Repository) (w : World) (s : Session)

theorem answers_status :
    (r.status w).Answers s ((r.knownStatus w s).map fun status => (status, 0)) := by
  cases h : s.status.value? with
  | some status =>
    have hrun := r.runOn_status_of_some w s h
    rw [knownStatus, h]
    exact gives_of_quiet hrun (List.append_nil _).symm (List.forall_mem_nil _)
  | none =>
    obtain ⟨notes, hnotes, hrun⟩ := r.runOn_status_of_none w s h
    rw [knownStatus, h]
    dsimp only
    cases hfound : r.foundStatus w s with
    | error fault =>
      rw [hfound] at hrun
      exact congrArg Prod.fst hrun
    | ok status =>
      rw [hfound] at hrun
      exact gives_of_quiet hrun rfl hnotes

/-- What is told of the tool is told from its state. -/
theorem answers_map_status {α : Type} (f : ToolStatus → α) :
    Answers (do return f (← r.status w)) s
      ((r.knownStatus w s).map fun status => (f status, 0)) := by
  have hmap := (r.answers_status w s).map f
  cases hstatus : r.knownStatus w s <;> rwa [hstatus] at hmap

/-- What is done with the tags of a listing, once it is known how the listing ended. -/
theorem answers_streamTags {dir : Path} {args : List Text}
    {g : List Tag × Except ProcessFailure Result → Work (List Tag)}
    (hdates : r.backend.PrintsInRange (w.outcome s.runs (r.toolCommand w s (some dir) args).argv))
    (hcause : ∀ tags cause s', (g (tags, .error cause)).Gives s' ([], 1))
    (hexit : ∀ tags (e : Exit) s', (g (tags, .ok ⟨e.code, [], Utf8.decode e.stderr⟩)).Gives s'
      (bestEffort [] (fun _ => false) (fun _ => tags) (.ok e))) :
    let c := r.toolCommand w s (some dir) args
    (r.streamTags w dir args >>= g).Answers s
      (r.backend.bestListing c (w.outcome s.runs c.argv)) := by
  obtain ⟨backend, root, config⟩ := r
  cases backend with
  | bitkeeper =>
    simp only [streamTags, bind_assoc, pure_bind]
    exact answers_stream BitKeeper.TagReader.not_isError_feed (fun e => hdates.failure?)
      (fun state => hcause state.tags.1) fun e => hexit _ e
  | git =>
    simp only [streamTags, bind_assoc, pure_bind]
    exact answers_stream Git.TagReader.not_isError_feed (fun e => hdates.failure?)
      (fun state => hcause state.tags) fun e => hexit _ e

theorem answers_enumerateTags {status : ToolStatus} (hknown : r.knownStatus w s = .ok status)
    (dir : Path) :
    let c := r.tagCommand w (r.probed w s) status dir
    let o := w.outcome (r.probed w s).runs c.argv
    r.backend.PrintsInRange o → (r.enumerateTags w dir).Answers s (r.backend.bestListing c o) := by
  intro c o hdates
  have hstatus := r.answers_status w s
  rw [hknown] at hstatus
  refine Answers.after_quiet hstatus ?_
  apply r.answers_streamTags w (r.probed w s) hdates
  · intro tags cause s'
    exact gives_complain_pure _ [] s'
  · intro tags e s'
    exact gives_of_status (gives_debug_pure _ tags s') (gives_complain_pure _ [] s')

section Keeping

variable {r w s} {listing : Except CommandFault (List Tag × Nat)}

/-- A list that was made is kept. -/
theorem answers_rebuildTagList {dir? : Option Path}
    (h : (r.enumerateTags w (dir?.getD r.root)).Answers s listing) :
    (r.rebuildTagList w dir?).Answers s (listing.map fun (_, errors) => ((), errors)) ∧
      ∀ tags errors, listing = .ok (tags, errors) →
        ((r.rebuildTagList w dir?).runOn s).2.tags = ⟨some tags⟩ := by
  have hrebuild := r.runOn_rebuildTagList w s dir?
  cases listing with
  | error fault =>
    have hfails : ((r.enumerateTags w (dir?.getD r.root)).runOn s).1 = .error (.badCommand fault) := h
    refine ⟨?_, nofun⟩
    change ((r.rebuildTagList w dir?).runOn s).1 = _
    simp only [hrebuild, hfails]
    rfl
  | ok listed =>
    obtain ⟨s', notes, hrun, hnotes, herrors⟩ := h
    simp only [hrun] at hrebuild
    refine ⟨⟨_, notes, hrebuild, hnotes, herrors⟩, ?_⟩
    rintro tags errors hlisted
    obtain rfl := Except.ok.inj hlisted
    rw [hrebuild]
    rfl

theorem answers_tagList (hnone : s.tags.value? = none)
    (h : (r.enumerateTags w r.root).Answers s listing) :
    (r.tagList w).Answers s listing ∧ ∀ tags errors, listing = .ok (tags, errors) →
      ((r.tagList w).runOn s).2.tags = ⟨some tags⟩ := by
  have hlist := r.runOn_tagList_of_none w s hnone
  cases listing with
  | error fault =>
    have hfails : ((r.enumerateTags w r.root).runOn s).1 = .error (.badCommand fault) := h
    refine ⟨?_, nofun⟩
    change ((r.tagList w).runOn s).1 = _
    simp only [hlist, hfails]
  | ok listed =>
    obtain ⟨s', notes, hrun, hnotes, herrors⟩ := h
    simp only [hrun] at hlist
    refine ⟨⟨_, notes, hlist, hnotes, herrors⟩, ?_⟩
    rintro tags errors hlisted
    obtain rfl := Except.ok.inj hlisted
    rw [hlist]
    rfl

end Keeping

/-! ## Whole sessions -/

/-- What the best-effort operations answer in a session, in a world in which commands may end in any way.
They fail only if their command is rejected. -/
structure BestEffort (r : Repository) (steps : List Step) (w : World) : Prop where
  /-- The tool works if it printed something with status 0 when it was last asked for its version, now or
  earlier. -/
  available : ∃ failed run o, r.probesOf {} (steps ++ [⟨w, .availability⟩]) = failed ++ [(run, o)] ∧
    (∀ probe ∈ failed, probe.2.IsRejected) ∧ (r.isAvailable w).Answers (r.session steps)
      ((run.command.printed? o).map fun text? => (text?.isSome, 0))
  version : ∃ failed run o, r.probesOf {} (steps ++ [⟨w, .version⟩]) = failed ++ [(run, o)] ∧
    (∀ probe ∈ failed, probe.2.IsRejected) ∧ (r.version w).Answers (r.session steps)
      ((run.command.printed? o).map fun text? => ((text?.map r.backend.banner.version).getD .oldest, 0))
  tracked : ∀ file,
    let c := r.trackingCommand w (r.session steps) file
    let answer := (c.ending c.timeout (w.outcome (r.session steps).runs c.argv)).map
      (bestEffort false (saysUntracked r.backend) (saysTracked r.backend (w.files.absolute file).name))
    (r.isTracked w file).Answers (r.session steps) answer ∧
      (r.isAnnotatable w file).Answers (r.session steps) answer
  content : ∀ dir name revision?,
    let c := r.contentCommand w (r.session steps) dir name revision?
    (r.content w dir name revision?).Answers (r.session steps)
      ((c.ending c.timeout (w.outcome (r.session steps).runs c.argv)).map
        (bestEffort none (fun _ => false) fun e => some e.stdout))
  /-- The tags are listed when the state of the tool is known. -/
  rebuilt : ∀ dir? status, r.knownStatus w (r.session steps) = .ok status →
    let s := r.probed w (r.session steps)
    let c := r.tagCommand w s status (dir?.getD r.root)
    let o := w.outcome s.runs c.argv
    r.backend.PrintsInRange o →
      (r.rebuildTagList w dir?).Answers (r.session steps)
        ((r.backend.bestListing c o).map fun (_, errors) => ((), errors)) ∧
      ∀ tags errors, r.backend.bestListing c o = .ok (tags, errors) →
        ((r.rebuildTagList w dir?).runOn (r.session steps)).2.tags = ⟨some tags⟩
  kept : ∀ tags, (r.session steps).tags.value? = some tags →
    (r.tagList w).runOn (r.session steps) = (.ok tags, r.session steps)
  listed : (r.session steps).tags.value? = none →
    ∀ status, r.knownStatus w (r.session steps) = .ok status →
      let s := r.probed w (r.session steps)
      let c := r.tagCommand w s status r.root
      let o := w.outcome s.runs c.argv
      r.backend.PrintsInRange o →
        (r.tagList w).Answers (r.session steps) (r.backend.bestListing c o) ∧
        ∀ tags errors, r.backend.bestListing c o = .ok (tags, errors) →
          ((r.tagList w).runOn (r.session steps)).2.tags = ⟨some tags⟩
  /-- If the tool cannot be asked for its version, its tags are not listed either. -/
  unlisted : ∀ fault, r.knownStatus w (r.session steps) = .error fault →
    (∀ dir?, ((r.rebuildTagList w dir?).runOn (r.session steps)).1 = .error (.badCommand fault)) ∧
    ((r.session steps).tags.value? = none →
      ((r.tagList w).runOn (r.session steps)).1 = .error (.badCommand fault))
  /-- A command is rejected, and no other reason there is for failing. -/
  rejected : ∀ s dir? args limit? o fault,
    (r.toolCommand w s dir? args).ending limit? o = .error fault ↔ o = .rejected fault

theorem session_bestEffort (r : Repository) (steps : List Step) (w : World) : BestEffort r steps w where
  available := by
    obtain ⟨failed, run, o, hprobes, hfailed, hknown⟩ :=
      r.exists_lastProbe steps (r.after_availability w (r.session steps))
    refine ⟨failed, run, o, hprobes, hfailed, ?_⟩
    have hanswers := r.answers_map_status w (r.session steps) (·.working)
    rwa [hknown, r.backend.working_statusFrom] at hanswers
  version := by
    obtain ⟨failed, run, o, hprobes, hfailed, hknown⟩ :=
      r.exists_lastProbe steps (r.after_version w (r.session steps))
    refine ⟨failed, run, o, hprobes, hfailed, ?_⟩
    have hanswers := r.answers_map_status w (r.session steps) (·.version)
    rwa [hknown, r.backend.version_statusFrom] at hanswers
  tracked file := ⟨r.answers_isTracked w _ file, r.answers_isTracked w _ file⟩
  content := r.answers_content w _
  rebuilt dir? status hknown hdates :=
    answers_rebuildTagList (r.answers_enumerateTags w _ hknown _ hdates)
  kept tags h := r.runOn_tagList_of_some w _ h
  listed hnone status hknown hdates :=
    answers_tagList hnone (r.answers_enumerateTags w _ hknown _ hdates)
  unlisted fault hstatus := by
    refine ⟨fun dir? => ?_, fun hnone => ?_⟩
    · rw [runOn_rebuildTagList, r.runOn_enumerateTags_of_unknown w _ hstatus]
      rfl
    · rw [r.runOn_tagList_of_none w _ hnone, r.runOn_enumerateTags_of_unknown w _ hstatus]
  rejected s dir? args limit? o fault := Command.ending_eq_error_iff _ limit? (List.cons_ne_nil _ _)

/-- With a time limit of 25 days, the question whether the tool works is not answered. -/
theorem not_neverFails :
    ¬∀ (r : Repository) (w : World), w.IsLawful (r.config.timeout.map .ofInt) →
      ∃ working, ((r.isAvailable w).runOn {}).1 = .ok working := by
  intro h
  let r : Repository := { backend := .git, root := .root, config := { timeout := some 2160000 } }
  let w : World := .facing (some (.ofInt 2160000)) (fun _ => .captured) "timeout is too large"
    fun _ => .exits {}
  have hlawful : w.IsLawful (r.config.timeout.map .ofInt) := World.isLawful_facing fun _ => nofun
  obtain ⟨working, hanswers⟩ := h r w hlawful
  have hstatus : r.knownStatus w {} = .error (.overlong "timeout is too large") :=
    knownStatus_facing_of_overlong (TimeLimit.isOverlong_ofInt 2160000) rfl rfl rfl
  rw [runOn_isAvailable, hstatus] at hanswers
  contradiction

/-- A line that is no tag and one that is; and a tool that is not there. -/
example :
    let c : Command := { argv := ["git", "for-each-ref"] }
    let e : Exit := { stdout := Utf8.encode "v0\nab\t\t2017-03-01T00:00:00+00:00\tv1\n" }
    (Backend.git.bestListing c (.exits e)).map (fun (tags, errors) => (tags.map (·.names), errors)) =
        .ok ([["v1".toList]], 0) ∧
      Backend.git.bestListing c (.unstartable .missing) = .ok ([], 1) := by
  decide +kernel

end Repository

end Annals

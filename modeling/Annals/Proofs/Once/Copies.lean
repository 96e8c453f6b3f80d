import Annals.Shelf
import Annals.Proofs.Once.Calls

/-!
# Lists that are built once and handed out

A cell keeps the place of a list and hands out copies, whose places others then have and may change
(`Handout.change`). The list itself is at no place that was handed out (`Handout.Keeps`), so it stays what
the latest run gave that did not fail; whatever others do to their copies, the answers are those of a cell
that holds the list itself (`Handout.answers_eq`).
-/

namespace Annals

namespace Once

variable {α ε : Type} {builds : Nat → Except ε (List α)}

theorem run_shelve (shelf : Shelf α) (n : Nat) :
    (shelve (supply builds)).run.run (shelf, n) =
      match builds n with
      | .ok l => (.ok shelf.next, shelf.add l, n + 1)
      | .error f => (.error f, shelf, n + 1) := by
  cases h : builds n <;> simp [shelve, supply, h, StateT.run]

theorem hold_rebuild (cell : Once Nat) (shelf : Shelf α) (n : Nat) :
    hold (fun _ => rebuild (supply builds)) (cell, shelf, n) =
      match builds n with
      | .ok l => (.ok (), ⟨some shelf.next⟩, shelf.add l, n + 1)
      | .error f => (.error f, cell, shelf, n + 1) := by
  have hrefresh := hold_refresh (shelve (supply builds)) (fun _ => ()) (cell, shelf, n)
  refine hrefresh.trans ?_
  rw [run_shelve]
  cases builds n <;> rfl

theorem hold_getCopy_of_some (build : ExceptT ε (StateM Nat) (List α)) (place : Nat) (shelf : Shelf α)
    (n : Nat) :
    hold (getCopy · build) (⟨some place⟩, shelf, n) =
      (.ok shelf.next, ⟨some place⟩, shelf.add ((shelf.read? place).getD []), n) := rfl

/-- A list that is built for a client is put at one place, and its copy at the next. -/
theorem hold_getCopy_of_none (shelf : Shelf α) (n : Nat) :
    hold (getCopy · (supply builds)) ({}, shelf, n) =
      match builds n with
      | .ok l => (.ok (shelf.next + 1), ⟨some shelf.next⟩, (shelf.add l).add l, n + 1)
      | .error f => (.error f, {}, shelf, n + 1) := by
  have hrun : (shelve (supply builds)).run.run (shelf, n) = _ := run_shelve shelf n
  cases h : builds n with
  | ok l =>
    rw [h] at hrun
    have hput : hold (getCopy · (supply builds)) ({}, shelf, n) =
        (.ok (shelf.add l).next, ⟨some shelf.next⟩,
          (shelf.add l).add (((shelf.add l).read? shelf.next).getD []), n + 1) := by
      simp only [hold, getCopy, Once.get, refresh, bind_assoc, ExceptT.run_bind, StateT.run_bind, hrun]
      rfl
    rw [hput, Shelf.read?_add, if_pos rfl, Shelf.next_add, Option.getD_some]
  | error f =>
    rw [h] at hrun
    simp only [hold, getCopy, Once.get, refresh, bind_assoc, ExceptT.run_bind, StateT.run_bind, hrun]
    rfl

end Once

/-- A cell that keeps a list, with all lists that there are, how often building it was tried, and the
places that were handed out. -/
structure Handout (α : Type) where
  cell : Once Nat := {}
  shelf : Shelf α := {}
  runs : Nat := 0
  given : List Nat := []

namespace Handout

open Once (Call Answer supply latest? held)

variable {α ε : Type}

/-- The list that is kept. -/
def content (h : Handout α) : Option (List α) := h.cell.value?.bind h.shelf.read?

/-- Asks the cell; a list is given as it is when it is handed out. -/
def ask (builds : Nat → Except ε (List α)) (c : Call) (h : Handout α) :
    Except ε (Answer (List α)) × Handout α :=
  match c with
  | .get =>
    match Once.hold (Once.getCopy · (supply builds)) (h.cell, h.shelf, h.runs) with
    | (.ok place, cell, shelf, runs) =>
      (.ok (.value ((shelf.read? place).getD [])), ⟨cell, shelf, runs, h.given ++ [place]⟩)
    | (.error f, cell, shelf, runs) => (.error f, ⟨cell, shelf, runs, h.given⟩)
  | .refresh =>
    let (result, cell, shelf, runs) :=
      Once.hold (fun _ => Once.rebuild (supply builds)) (h.cell, h.shelf, h.runs)
    (result.map fun _ => .done, ⟨cell, shelf, runs, h.given⟩)
  | .isComputed => (.ok (.computed h.cell.isComputed), h)

/-- Someone changes a list that was handed out, if there were so many. -/
def change (which : Nat) (l : List α) (h : Handout α) : Handout α :=
  match h.given[which]? with
  | some place => { h with shelf := h.shelf.change place l }
  | none => h

/-- What happens to a cell and to the lists that it handed out. -/
inductive Event (α : Type) where
  | ask (c : Call)
  | change (which : Nat) (l : List α)

def step (builds : Nat → Except ε (List α)) (h : Handout α) : Event α → Handout α
  | .ask c => (h.ask builds c).2
  | .change which l => h.change which l

def after (builds : Nat → Except ε (List α)) (events : List (Event α)) : Handout α :=
  events.foldl (step builds) {}

/-- The answers that are given. -/
def answers (builds : Nat → Except ε (List α)) :
    List (Event α) → Handout α → List (Except ε (Answer (List α)))
  | [], _ => []
  | .ask c :: events, h => (h.ask builds c).1 :: answers builds events (h.ask builds c).2
  | .change which l :: events, h => answers builds events (h.change which l)

/-- What the cell is asked. -/
def asked : List (Event α) → List Call
  | [] => []
  | .ask c :: events => c :: asked events
  | .change .. :: events => asked events

/-- After some runs, the cell keeps what the latest run gave that did not fail, at a place that nobody
else has. -/
structure Keeps (builds : Nat → Except ε (List α)) (n : Nat) (h : Handout α) : Prop where
  runs : h.runs = n
  kept : h.cell.value?.map h.shelf.read? = (latest? builds n).map some
  apart : ∀ place ∈ h.cell.value?, place ∉ h.given
  given : ∀ place ∈ h.given, place < h.shelf.next

namespace Keeps

variable {builds : Nat → Except ε (List α)} {n : Nat} {h : Handout α}

theorem fresh (builds : Nat → Except ε (List α)) : Keeps builds 0 {} :=
  ⟨rfl, rfl, nofun, nofun⟩

theorem content_eq (hk : Keeps builds n h) : h.content = latest? builds n := by
  have hkept := hk.kept
  rw [content]
  cases hvalue : h.cell.value? <;> cases hlatest : latest? builds n <;> simp_all

theorem isComputed_eq (hk : Keeps builds n h) : h.cell.isComputed = (latest? builds n).isSome := by
  rw [Once.isComputed, ← Option.isSome_map, hk.kept, Option.isSome_map]

/-- The list is kept at a place, and what stands there is what it should be. -/
theorem exists_place (hk : Keeps builds n h) {l : List α} (hl : latest? builds n = some l) :
    ∃ place, h.cell = ⟨some place⟩ ∧ h.shelf.read? place = some l := by
  have hkept := hk.kept
  rw [hl, Option.map_some, Option.map_eq_some_iff] at hkept
  obtain ⟨place, hvalue, hread⟩ := hkept
  exact ⟨place, congrArg Once.mk hvalue, hread⟩

theorem cell_eq_of_none (hk : Keeps builds n h) (hl : latest? builds n = none) : h.cell = {} := by
  have hkept := hk.kept
  rw [hl, Option.map_none, Option.map_eq_none_iff] at hkept
  exact congrArg Once.mk hkept

/-- A list that was handed out is not the one that is kept. -/
theorem change (hk : Keeps builds n h) (which : Nat) (l : List α) :
    Keeps builds n (h.change which l) := by
  rw [Handout.change]
  split
  · next place hplace =>
    have hmem : place ∈ h.given := List.mem_of_getElem? hplace
    refine ⟨hk.runs, ?_, hk.apart, by simpa using hk.given⟩
    -- the place that was handed out is not the cell's own, so the cell reads what it read before
    rw [← hk.kept]
    refine Option.map_congr fun own hown => ?_
    rw [Shelf.read?_change, if_neg]
    rintro rfl
    exact hk.apart own hown hmem
  · exact hk

/-- A list that is built is put at a place of its own. -/
theorem built (hk : Keeps builds n h) {l : List α} (hl : builds n = .ok l) :
    Keeps builds (n + 1) ⟨⟨some h.shelf.next⟩, h.shelf.add l, n + 1, h.given⟩ where
  runs := rfl
  kept := by simp [Shelf.read?_add, Once.latest?_succ_of_ok hl]
  apart := by
    rintro _ ⟨⟩ hmem
    exact Nat.lt_irrefl _ (hk.given _ hmem)
  given place hmem := by
    rw [Shelf.next_add]
    exact Nat.lt_succ_of_lt (hk.given place hmem)

theorem failed (hk : Keeps builds n h) {f : ε} (hf : builds n = .error f) :
    Keeps builds (n + 1) ⟨h.cell, h.shelf, n + 1, h.given⟩ where
  runs := rfl
  kept := by rw [Once.latest?_succ_of_error hf, hk.kept]
  apart := hk.apart
  given := hk.given

/-- A copy is put at a place of its own, which is not that of the list. -/
theorem handed (hk : Keeps builds n h) (l : List α) :
    Keeps builds n ⟨h.cell, h.shelf.add l, h.runs, h.given ++ [h.shelf.next]⟩ := by
  have hown : ∀ own ∈ h.cell.value?, own ≠ h.shelf.next := by
    intro own hown
    cases hlatest : latest? builds n with
    | none => exact absurd hown (by rw [hk.cell_eq_of_none hlatest]; exact nofun)
    | some l =>
      obtain ⟨place, hcell, hread⟩ := hk.exists_place hlatest
      obtain rfl : place = own := Option.some.inj ((congrArg Once.value? hcell).symm.trans hown)
      exact h.shelf.ne_next_of_read? hread
  refine ⟨hk.runs, ?_, fun own hmem => ?_, fun place hmem => ?_⟩
  · rw [← hk.kept]
    exact Option.map_congr fun own hmem => by rw [Shelf.read?_add, if_neg (hown own hmem)]
  · rw [List.mem_append, List.mem_singleton, not_or]
    exact ⟨hk.apart own hmem, hown own hmem⟩
  · rw [Shelf.next_add]
    rcases List.mem_append.1 hmem with hmem | hmem
    · exact Nat.lt_succ_of_lt (hk.given place hmem)
    · exact Nat.lt_succ_of_le (Nat.le_of_eq (List.mem_singleton.1 hmem))

/-- A cell that keeps a list answers as one that holds it would, and keeps what that is left with. -/
theorem ask (hk : Keeps builds n h) (c : Call) :
    (h.ask builds c).1 = (Once.call builds c (held builds n)).1 ∧
      Keeps builds (Once.call builds c (held builds n)).2.2 (h.ask builds c).2 := by
  cases c with
  | get =>
    cases hl : latest? builds n with
    | some l =>
      obtain ⟨place, hcell, hread⟩ := hk.exists_place hl
      rw [Once.call_get_of_some hl, Handout.ask, hcell, Once.hold_getCopy_of_some, hread]
      exact ⟨by simp [Shelf.read?_add], hcell ▸ hk.handed l⟩
    | none =>
      rw [Once.call_get_of_none hl, Handout.ask, hk.cell_eq_of_none hl, Once.hold_getCopy_of_none,
        hk.runs]
      cases hout : builds n with
      | ok l =>
        -- the list is put on the shelf first, and the copy that is handed out behind it
        have hkeeps := (hk.built hout).handed l
        rw [Shelf.next_add] at hkeeps
        exact ⟨by simp [Shelf.read?_add, Except.map], hkeeps⟩
      | error f => exact ⟨rfl, hk.cell_eq_of_none hl ▸ hk.failed hout⟩
  | refresh =>
    rw [Once.call_refresh, Handout.ask, Once.hold_rebuild, hk.runs]
    cases hout : builds n with
    | ok l => exact ⟨rfl, hk.built hout⟩
    | error f => exact ⟨rfl, hk.failed hout⟩
  | isComputed =>
    rw [Once.call_isComputed, Handout.ask, hk.isComputed_eq]
    exact ⟨rfl, hk⟩

end Keeps

variable {builds : Nat → Except ε (List α)}

theorem keeps_after (builds : Nat → Except ε (List α)) (events : List (Event α)) :
    Keeps builds (after builds events).runs (after builds events) := by
  suffices h : ∃ n, Keeps builds n (after builds events) by
    obtain ⟨n, hn⟩ := h
    exact hn.runs ▸ hn
  induction events using List.reverseRecOn with
  | nil => exact ⟨0, .fresh builds⟩
  | append_singleton events event ih =>
    obtain ⟨n, hn⟩ := ih
    rw [after, List.foldl_append]
    cases event with
    | ask c => exact ⟨_, (hn.ask c).2⟩
    | change which l => exact ⟨n, hn.change which l⟩

/-- What is done to the lists that were handed out does not matter: the answers are those of a cell that
holds the list itself. -/
theorem answers_eq {n : Nat} {h : Handout α} (hk : Keeps builds n h) (events : List (Event α)) :
    answers builds events h = Once.answers builds (asked events) (held builds n) := by
  induction events generalizing n h with
  | nil => rfl
  | cons event events ih =>
    cases event with
    | ask c =>
      obtain ⟨hanswer, hkeeps⟩ := hk.ask c
      obtain ⟨m, hm⟩ := Once.exists_call_eq builds n c
      rw [hm] at hkeeps
      rw [answers, asked, Once.answers, hanswer, hm, ih hkeeps]
      rfl
    | change which l => exact ih (hk.change which l)

end Handout

/-- A build that fails changes nothing but that there was one more. -/
theorem Handout.ask_refresh_of_error {α ε : Type} {builds : Nat → Except ε (List α)} {h : Handout α}
    {f : ε} (hf : builds h.runs = .error f) :
    (h.ask builds .refresh).2 = { h with runs := h.runs + 1 } := by
  rw [ask, Once.hold_rebuild, hf]

/-- Cells under any outcomes of what they compute, and any calls. A value is computed each time it is
asked for up to the first time that does not fail, and is given from then on. A list is built by `get`
only if no run succeeded yet, and once by every `refresh`; what is kept is the latest list that was built,
also after a run that failed, and whatever is done to the copies that were handed out. -/
theorem Once.keeps_latest_success {α β ε : Type} (outcomes : Nat → Except ε α)
    (builds : Nat → Except ε (List β)) :
    (∀ calls : List Call, Call.refresh ∉ calls →
      let n := calls.count .get
      ((∀ k < n, ∀ a, outcomes k ≠ .ok a) →
        after outcomes calls = ({}, n) ∧
        call outcomes .get (after outcomes calls) =
          ((outcomes n).map .value, ⟨(outcomes n).toOption⟩, n + 1)) ∧
      ∀ j a, j < n → IsFirstSuccess outcomes j a →
        after outcomes calls = (⟨some a⟩, j + 1) ∧
        call outcomes .get (after outcomes calls) = (.ok (.value a), after outcomes calls)) ∧
    ∀ events : List (Handout.Event β),
      let h := Handout.after builds events
      let got := h.ask builds .get
      let refreshed := h.ask builds .refresh
      h.content = latest? builds h.runs ∧
      h.ask builds .isComputed = (.ok (.computed h.content.isSome), h) ∧
      (∀ l, h.content = some l →
        got.1 = .ok (.value l) ∧ got.2.runs = h.runs ∧ got.2.content = some l) ∧
      (h.content = none →
        got.1 = (builds h.runs).map .value ∧ got.2.runs = h.runs + 1 ∧
        got.2.content = (builds h.runs).toOption) ∧
      refreshed.1 = (builds h.runs).map (fun _ => .done) ∧ refreshed.2.runs = h.runs + 1 ∧
      (∀ l, builds h.runs = .ok l → refreshed.2.content = some l) ∧
      (∀ f, builds h.runs = .error f → refreshed.2 = { h with runs := h.runs + 1 }) ∧
      Handout.answers builds events {} = answers builds (Handout.asked events) ({}, 0) := by
  refine ⟨fun calls hcalls => ⟨fun hfail => ?_, fun j a hj hja => ?_⟩, fun events => ?_⟩
  · have hlatest := latest?_eq_none_iff.2 hfail
    have hafter := (after_eq_of_no_refresh hcalls).1 hfail
    rw [hafter, call_get_of_none hlatest, held, held, latest?, hlatest, Option.or_none]
    exact ⟨rfl, rfl⟩
  · have hlatest := latest?_succ_of_ok hja.1
    have hafter := (after_eq_of_no_refresh hcalls).2 j a hj hja
    rw [hafter, call_get_of_some hlatest, held, hlatest]
    exact ⟨rfl, rfl⟩
  · intro h got refreshed
    have hk : h.Keeps builds h.runs := Handout.keeps_after builds events
    have hcontent : h.content = latest? builds h.runs := hk.content_eq
    have hget := hk.ask .get
    obtain ⟨hrefresh, hrefreshed⟩ := hk.ask .refresh
    rw [call_refresh] at hrefresh hrefreshed
    refine ⟨hcontent, ?_, fun l hl => ?_, fun hl => ?_, hrefresh, hrefreshed.runs, fun l hl => ?_,
      fun f hf => Handout.ask_refresh_of_error hf, Handout.answers_eq (.fresh builds) events⟩
    · rw [hcontent, ← hk.isComputed_eq]
      rfl
    · rw [hcontent] at hl
      rw [call_get_of_some hl] at hget
      exact ⟨hget.1, hget.2.runs, hget.2.content_eq.trans hl⟩
    · rw [hcontent] at hl
      rw [call_get_of_none hl] at hget
      refine ⟨hget.1, hget.2.runs, hget.2.content_eq.trans ?_⟩
      rw [held, latest?, hl, Option.or_none]
    · exact hrefreshed.content_eq.trans (latest?_succ_of_ok hl)

/-- A value that is missing once it is there, and an empty list that is kept through a build that fails,
though someone writes into the copy of it. -/
theorem Once.keeps_latest_success_of_empty :
    let outcomes : Nat → Except String (Option Nat) := fun n => if n = 0 then .error "down" else .ok none
    let builds : Nat → Except String (List Nat) := fun n => if n = 1 then .ok [] else .error "down"
    let events : List (Handout.Event Nat) :=
      [.ask .get, .ask .get, .change 0 [7], .ask .refresh, .ask .isComputed]
    after outcomes [.get, .isComputed, .get] = (⟨some none⟩, 2) ∧
    (call outcomes .get (after outcomes [.get, .isComputed, .get])).1 = .ok (.value none) ∧
    ((Handout.after builds events).ask builds .get).1 = .ok (.value []) ∧
    ((Handout.after builds events).ask builds .get).2.runs = 3 := by
  intro outcomes builds events
  obtain ⟨hvalue, hlist⟩ := Once.keeps_latest_success outcomes builds
  obtain ⟨-, hfirst⟩ := hvalue [.get, .isComputed, .get] (by decide)
  obtain ⟨hafter, hget⟩ := hfirst 1 none (by decide)
    ⟨rfl, fun k hk a => by obtain rfl := Nat.lt_one_iff.1 hk; exact nofun⟩
  obtain ⟨hcontent, -, hkept, -⟩ := hlist events
  obtain ⟨hanswer, hruns, -⟩ := hkept [] (hcontent.trans rfl)
  exact ⟨hafter, congrArg Prod.fst hget, hanswer, hruns⟩

end Annals

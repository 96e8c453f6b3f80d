import Annals.Once
import Mathlib.Data.List.Induction

/-!
# Cells under computations that fail

A computation may fail now and succeed later. What a cell holds is then a matter of how often the
computation has run: it is what the latest run gave that did not fail, and nothing if all of them failed
(`Once.held`). Every call leaves the cell in such a state (`Once.exists_call_eq`), so every sequence of
calls does (`Once.exists_after_eq`). If the cell is asked for its value only, there is one run for every
time up to the first that succeeds, and none after it (`Once.after_eq_of_no_refresh`).
-/

namespace Annals

namespace Once

section Holding

variable {α β ε σ : Type}

/-- An owner has the new value if there is one, and the cell as it was if not. -/
theorem hold_refresh (compute : ExceptT ε (StateM σ) α) (g : α → β) (owner : Once α × σ) :
    hold (fun _ => do
        let (a, cell) ← refresh compute
        return (g a, cell)) owner =
      match compute.run.run owner.2 with
      | (.ok a, s) => (.ok (g a), ⟨some a⟩, s)
      | (.error f, s) => (.error f, owner.1, s) := by
  rcases hout : compute.run.run owner.2 with ⟨f | a, s⟩ <;>
  · simp only [hold, refresh, bind_pure_comp, Functor.map_map, ExceptT.run_map, StateT.run_map, hout]
    rfl

end Holding

/-- What is asked of a cell. -/
inductive Call where
  | get
  | refresh
  | isComputed
  deriving DecidableEq

/-- What a cell gives when it is asked. -/
inductive Answer (α : Type) where
  | value (a : α)
  | done
  | computed (b : Bool)
  deriving DecidableEq

variable {α ε : Type}

/-- A computation whose runs come out in one way after the other. -/
def supply (outcomes : Nat → Except ε α) : ExceptT ε (StateM Nat) α :=
  ExceptT.mk fun runs => (outcomes runs, runs + 1)

/-- The answer to a call, with the cell after it and the number of runs by then. -/
def call (outcomes : Nat → Except ε α) (c : Call) (owner : Once α × Nat) :
    Except ε (Answer α) × Once α × Nat :=
  match c with
  | .get => hold (fun cell => do
      let (a, cell) ← cell.get (supply outcomes)
      return (.value a, cell)) owner
  | .refresh => hold (fun _ => do
      let (_, cell) ← refresh (supply outcomes)
      return (.done, cell)) owner
  | .isComputed => (.ok (.computed owner.1.isComputed), owner)

/-- The cell after calls, and the number of runs by then. -/
def after (outcomes : Nat → Except ε α) (calls : List Call) : Once α × Nat :=
  calls.foldl (fun owner c => (call outcomes c owner).2) ({}, 0)

/-- The answers to calls. -/
def answers (outcomes : Nat → Except ε α) : List Call → Once α × Nat → List (Except ε (Answer α))
  | [], _ => []
  | c :: calls, owner =>
    (call outcomes c owner).1 :: answers outcomes calls (call outcomes c owner).2

/-- What the latest of the first runs gave that did not fail. -/
def latest? (outcomes : Nat → Except ε α) : Nat → Option α
  | 0 => none
  | n + 1 => (outcomes n).toOption.or (latest? outcomes n)

/-- The cell after some runs, with their number. -/
def held (outcomes : Nat → Except ε α) (n : Nat) : Once α × Nat := (⟨latest? outcomes n⟩, n)

variable {outcomes : Nat → Except ε α} {n : Nat}

theorem latest?_succ_of_error {f : ε} (h : outcomes n = .error f) :
    latest? outcomes (n + 1) = latest? outcomes n := by
  rw [latest?, h]
  rfl

theorem latest?_succ_of_ok {a : α} (h : outcomes n = .ok a) :
    latest? outcomes (n + 1) = some a := by
  rw [latest?, h]
  rfl

theorem latest?_eq_none_iff : latest? outcomes n = none ↔ ∀ k < n, ∀ a, outcomes k ≠ .ok a := by
  induction n with
  | zero => simp [latest?]
  | succ n ih =>
    rw [latest?, Option.or_eq_none_iff, ih, Nat.forall_lt_succ_right, and_comm]
    refine and_congr_right fun _ => ?_
    cases outcomes n <;> simp [Except.toOption]

/-! ## One call -/

theorem hold_refresh_held {β : Type} (g : α → β) :
    hold (fun _ => do
        let (a, cell) ← refresh (supply outcomes)
        return (g a, cell)) (held outcomes n) =
      ((outcomes n).map g, held outcomes (n + 1)) := by
  have hrun : (supply outcomes).run.run (held outcomes n).2 = (outcomes n, n + 1) := rfl
  rw [hold_refresh, hrun]
  cases hout : outcomes n with
  | ok a => simp only [held, latest?_succ_of_ok hout, Except.map]
  | error f => simp only [held, latest?_succ_of_error hout, Except.map]

/-- A value that is there is given without a run. -/
theorem call_get_of_some {a : α} (h : latest? outcomes n = some a) :
    call outcomes .get (held outcomes n) = (.ok (.value a), held outcomes n) := by
  rw [held, h]
  rfl

/-- An empty cell runs the computation, and stays empty if that fails. -/
theorem call_get_of_none (h : latest? outcomes n = none) :
    call outcomes .get (held outcomes n) = ((outcomes n).map .value, held outcomes (n + 1)) := by
  rw [← hold_refresh_held, held, h]
  rfl

theorem call_refresh :
    call outcomes .refresh (held outcomes n) =
      ((outcomes n).map fun _ => .done, held outcomes (n + 1)) :=
  hold_refresh_held fun _ => Answer.done

theorem call_isComputed :
    call outcomes .isComputed (held outcomes n) =
      (.ok (.computed (latest? outcomes n).isSome), held outcomes n) := rfl

/-- A call leaves the cell with what the latest run gave, if it did not fail. -/
theorem exists_call_eq (outcomes : Nat → Except ε α) (n : Nat) (c : Call) :
    ∃ m, (call outcomes c (held outcomes n)).2 = held outcomes m := by
  cases c with
  | get =>
    cases h : latest? outcomes n with
    | some a => exact ⟨n, by rw [call_get_of_some h]⟩
    | none => exact ⟨n + 1, by rw [call_get_of_none h]⟩
  | refresh => exact ⟨n + 1, by rw [call_refresh]⟩
  | isComputed => exact ⟨n, by rw [call_isComputed]⟩

/-! ## Runs of calls -/

theorem after_concat (outcomes : Nat → Except ε α) (calls : List Call) (c : Call) :
    after outcomes (calls ++ [c]) = (call outcomes c (after outcomes calls)).2 := by
  rw [after, List.foldl_append]
  rfl

theorem exists_after_eq (outcomes : Nat → Except ε α) (calls : List Call) :
    ∃ n, after outcomes calls = held outcomes n := by
  induction calls using List.reverseRecOn with
  | nil => exact ⟨0, rfl⟩
  | append_singleton calls c ih =>
    obtain ⟨n, hn⟩ := ih
    rw [after_concat, hn]
    exact exists_call_eq outcomes n c

/-- Whether a run is the first that does not fail. -/
def IsFirstSuccess (outcomes : Nat → Except ε α) (n : Nat) (a : α) : Prop :=
  outcomes n = .ok a ∧ ∀ k < n, ∀ b, outcomes k ≠ .ok b

/-- If the value is asked for and nothing else is done, there is one run each time, up to the first that
does not fail; there is none after it. -/
theorem after_eq_of_no_refresh {calls : List Call} (h : Call.refresh ∉ calls) :
    ((∀ k < calls.count .get, ∀ a, outcomes k ≠ .ok a) →
      after outcomes calls = held outcomes (calls.count .get)) ∧
    ∀ j a, j < calls.count .get → IsFirstSuccess outcomes j a →
      after outcomes calls = held outcomes (j + 1) := by
  induction calls using List.reverseRecOn with
  | nil => exact ⟨fun _ => rfl, nofun⟩
  | append_singleton calls c ih =>
    rw [List.mem_append, not_or, List.mem_singleton] at h
    obtain ⟨hnone, hfirst⟩ := ih h.1
    rw [after_concat]
    cases c with
    | refresh => exact absurd rfl h.2
    | isComputed =>
      simp only [List.count_append, List.count_singleton]
      exact ⟨hnone, hfirst⟩
    | get =>
      have hcount : (calls ++ [Call.get]).count .get = calls.count .get + 1 := by simp
      rw [hcount]
      refine ⟨fun hfail => ?_, fun j a hj hja => ?_⟩
      · have hfail' := fun k hk => hfail k (Nat.lt_succ_of_lt hk)
        rw [hnone hfail', call_get_of_none (latest?_eq_none_iff.2 hfail')]
      · -- the first success came before this call, or this call makes it
        rcases Nat.lt_succ_iff_lt_or_eq.1 hj with hlt | rfl
        · rw [hfirst j a hlt hja, call_get_of_some (latest?_succ_of_ok hja.1)]
        · rw [hnone hja.2, call_get_of_none (latest?_eq_none_iff.2 hja.2)]

end Once

end Annals

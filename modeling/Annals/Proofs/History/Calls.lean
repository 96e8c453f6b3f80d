import Annals.Proofs.History.Reader
import Mathlib.Data.List.Induction
import Mathlib.Data.List.Nodup

/-!
# Feeding and reading by turns

A reader may be asked for its history at any time and be fed further lines after it, some of which may
fail. Whatever is called, the history only grows (`HistoryFormat.readAfter_prefix`), asking again gives
the same (`readAfter_replicate`), and what holds of every record holds of every entry (`sound_reader`).
The invariant behind it is `HistoryReader.Sound`, with one lemma for each thing that a call does.
-/

namespace Annals

namespace HistoryFormat

variable {π : Type}

/-- What is true of a record when it is opened, and stays true with every line added to it. -/
structure Maintains (F : HistoryFormat π) (P : Entry → Prop) : Prop where
  opens : ∀ header p, F.opens header = .record p → P (F.entry p)
  extend : ∀ p line, P (F.entry p) → P (F.entry (F.extend p line))

end HistoryFormat

namespace HistoryReader

variable {π : Type} {F : HistoryFormat π} {P : Entry → Prop} {since? : Option Text}
  {r : HistoryReader π}

/-- What can be asked of a reader. -/
inductive Call where
  | feed (line : Text)
  | history
  deriving DecidableEq

/-- The reader after a call. A line that fails leaves what was read before it. -/
def after (F : HistoryFormat π) (r : HistoryReader π) : Call → HistoryReader π
  | .feed line => (r.feed F line).state
  | .history => (r.history F).2.1

/-- A reader with a bound whose entries are of distinct revisions, none of them excluded, and have what
its records have. -/
structure Sound (F : HistoryFormat π) (P : Entry → Prop) (since? : Option Text)
    (r : HistoryReader π) : Prop where
  since : r.since = since?
  entries : ∀ e ∈ r.entries, P e ∧ since?.any (F.excludes · e.revision) = false
  distinct : r.entries.revisions.Nodup
  pending : ∀ p ∈ r.pending?, P (F.entry p)

theorem kept?_fateOf_eq_some {seen : List Text} {e e' : Entry}
    (h : (F.fateOf since? seen e).kept? = some e') :
    e' = e ∧ since?.any (F.excludes · e.revision) = false ∧ e.revision ∉ seen := by
  unfold HistoryFormat.fateOf at h
  split at h
  · contradiction
  · next hkept =>
    split at h
    · contradiction
    · next hnew =>
      refine ⟨(Option.some.inj h).symm, by simpa using hkept, fun hmem => hnew ?_⟩
      exact List.contains_iff_mem.mpr hmem

namespace Sound

theorem fresh (F : HistoryFormat π) (P : Entry → Prop) (since? : Option Text) :
    Sound F P since? ({ since := since? } : HistoryReader π) :=
  ⟨rfl, nofun, List.nodup_nil, nofun⟩

theorem close (h : Sound F P since? r) : Sound F P since? (r.close F).1 := by
  cases hp : r.pending? with
  | none =>
    rw [close_of_none hp]
    exact h
  | some p =>
    rw [close_of_some hp, h.since]
    cases hkept : (F.fateOf since? r.entries.revisions (F.entry p)).kept? with
    | none => exact ⟨rfl, by simpa using h.entries, by simpa using h.distinct, nofun⟩
    | some e =>
      obtain ⟨rfl, hbound, hnew⟩ := kept?_fateOf_eq_some hkept
      refine ⟨rfl, ?_, ?_, nofun⟩
      · exact List.forall_mem_append.mpr
          ⟨h.entries, List.forall_mem_singleton.mpr ⟨h.pending p hp, hbound⟩⟩
      · change (List.map Entry.revision (r.entries ++ [F.entry p])).Nodup
        rw [List.map_append]
        exact h.distinct.append (List.nodup_singleton _) (List.disjoint_singleton.mpr hnew)

theorem feed (hF : F.Maintains P) (h : Sound F P since? r) (line : Text) :
    Sound F P since? (r.feed F line).state := by
  unfold HistoryReader.feed
  split
  · refine ⟨h.since, h.entries, h.distinct, fun p hp => ?_⟩
    obtain ⟨q, hq, rfl⟩ := Option.map_eq_some_iff.mp hp
    exact hF.extend q line (h.pending q hq)
  · next header _ =>
    -- the record before the header is closed, whatever the header opens
    have hclosed := h.close
    dsimp only
    split
    · next p ho =>
      refine ⟨hclosed.since, hclosed.entries, hclosed.distinct, fun q hq => ?_⟩
      obtain rfl := Option.some.inj hq
      exact hF.opens header p ho
    · exact hclosed
    · exact hclosed

theorem history (h : Sound F P since? r) : Sound F P since? (r.history F).2.1 := by
  unfold HistoryReader.history
  split
  · exact h
  · have hclosed := h.close
    exact ⟨hclosed.since, hclosed.entries, hclosed.distinct, hclosed.pending⟩

theorem after (hF : F.Maintains P) (h : Sound F P since? r) (call : Call) :
    Sound F P since? (r.after F call) := by
  cases call with
  | feed line => exact h.feed hF line
  | history => exact h.history

end Sound

/-! ## Growing -/

/-- The history that is read is what the reader has from then on. -/
theorem history_eq_entries (F : HistoryFormat π) (r : HistoryReader π) :
    (r.history F).1 = (r.after F .history).entries := by
  unfold after history
  split <;> rfl

theorem asked_after_history (F : HistoryFormat π) (r : HistoryReader π) :
    (r.after F .history).asked = true := by
  change (r.history F).2.1.asked = true
  unfold history
  split
  · assumption
  · rfl

/-- A reader that was asked before gives what it has. -/
theorem after_history_of_asked (h : r.asked = true) : r.after F .history = r := by
  simp [after, history, h]

theorem entries_prefix_close (F : HistoryFormat π) (r : HistoryReader π) :
    r.entries <+: (r.close F).1.entries := by
  cases hp : r.pending? with
  | none =>
    exact ⟨[], by rw [close_of_none hp, List.append_nil]⟩
  | some p =>
    rw [close_of_some hp]
    exact List.prefix_append _ _

theorem entries_prefix_after (F : HistoryFormat π) (r : HistoryReader π) (call : Call) :
    r.entries <+: (r.after F call).entries := by
  have hclose := entries_prefix_close F r
  cases call with
  | feed line =>
    change r.entries <+: (r.feed F line).state.entries
    unfold feed
    split
    · exact List.prefix_refl _
    · dsimp only
      split <;> exact hclose
  | history =>
    change r.entries <+: (r.history F).2.1.entries
    unfold history
    split
    · exact List.prefix_refl _
    · exact hclose

theorem entries_prefix_foldl (F : HistoryFormat π) (calls : List Call) (r : HistoryReader π) :
    r.entries <+: (calls.foldl (after F) r).entries := by
  induction calls generalizing r with
  | nil => exact List.prefix_refl _
  | cons call calls ih => exact (entries_prefix_after F r call).trans (ih (r.after F call))

end HistoryReader

/-! ## Runs of a reader -/

namespace HistoryFormat

open HistoryReader (Call)

variable {π : Type} {F : HistoryFormat π} {P : Entry → Prop}

/-- A fresh reader after some calls. -/
def reader (F : HistoryFormat π) (since? : Option Text) (calls : List Call) : HistoryReader π :=
  calls.foldl (HistoryReader.after F) { since := since? }

/-- The history that a fresh reader gives after some calls. -/
def readAfter (F : HistoryFormat π) (since? : Option Text) (calls : List Call) : History :=
  ((F.reader since? calls).history F).1

theorem reader_append (F : HistoryFormat π) (since? : Option Text) (calls later : List Call) :
    F.reader since? (calls ++ later) = later.foldl (HistoryReader.after F) (F.reader since? calls) :=
  List.foldl_append

theorem readAfter_eq_entries (F : HistoryFormat π) (since? : Option Text) (calls : List Call) :
    F.readAfter since? calls = (F.reader since? (calls ++ [.history])).entries := by
  rw [readAfter, HistoryReader.history_eq_entries, reader_append]
  rfl

theorem sound_reader (hF : F.Maintains P) (since? : Option Text) (calls : List Call) :
    HistoryReader.Sound F P since? (F.reader since? calls) := by
  induction calls using List.reverseRecOn with
  | nil => exact .fresh F P since?
  | append_singleton calls call ih =>
    rw [reader_append]
    exact ih.after hF call

/-- The history that is given once is the beginning of every later one. -/
theorem readAfter_prefix (F : HistoryFormat π) (since? : Option Text) (calls later : List Call) :
    F.readAfter since? calls <+: F.readAfter since? (calls ++ .history :: later) := by
  have hlater : calls ++ Call.history :: later ++ [.history] =
      calls ++ [.history] ++ (later ++ [.history]) := by simp
  rw [readAfter_eq_entries, readAfter_eq_entries, hlater,
    reader_append F since? (calls ++ [Call.history])]
  exact HistoryReader.entries_prefix_foldl F _ _

/-- Without a line in between, the same history is given again. -/
theorem readAfter_replicate (F : HistoryFormat π) (since? : Option Text) (calls : List Call) (n : Nat) :
    F.readAfter since? (calls ++ List.replicate n .history) = F.readAfter since? calls := by
  induction n with
  | zero => rw [List.replicate_zero, List.append_nil]
  | succ n ih =>
    rw [List.replicate_succ', ← List.append_assoc, ← ih, readAfter_eq_entries, readAfter_eq_entries]
    rw [reader_append F since? _ [.history], List.foldl_cons, List.foldl_nil]
    have hasked : (F.reader since? (calls ++ List.replicate n .history ++ [.history])).asked = true := by
      rw [reader_append]
      exact HistoryReader.asked_after_history F _
    rw [HistoryReader.after_history_of_asked hasked]

end HistoryFormat

end Annals

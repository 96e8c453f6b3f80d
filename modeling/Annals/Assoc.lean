/-!
# Ordered association lists

Keys with values, in the order in which the keys were first written. Writing a key again changes its
value and keeps its place: `get?_put` says what is found after writing, `keys_put` in which order the keys
are.
-/

namespace Annals

/-- Keys with values, in the order of first writing. -/
abbrev Assoc (κ α : Type) := List (κ × α)

namespace Assoc

variable {κ α β : Type} [DecidableEq κ]

def get? (k : κ) : Assoc κ α → Option α
  | [] => none
  | (l, a) :: rest => if l = k then some a else get? k rest

def has (k : κ) (m : Assoc κ α) : Bool := (get? k m).isSome

def put (k : κ) (a : α) : Assoc κ α → Assoc κ α
  | [] => [(k, a)]
  | (l, b) :: rest => if l = k then (k, a) :: rest else (l, b) :: put k a rest

def remove (k : κ) : Assoc κ α → Assoc κ α
  | [] => []
  | (l, b) :: rest => if l = k then rest else (l, b) :: remove k rest

/-- Changes the value of a key, if it has one. -/
def modify (k : κ) (f : α → α) : Assoc κ α → Assoc κ α
  | [] => []
  | (l, b) :: rest => if l = k then (l, f b) :: rest else (l, b) :: modify k f rest

/-- Adds to the list under a key, which is empty if there is none yet. -/
def extend (k : κ) (as : List α) (m : Assoc κ (List α)) : Assoc κ (List α) :=
  put k ((get? k m).getD [] ++ as) m

def keys (m : Assoc κ α) : List κ := List.map (·.1) m

theorem get?_put (k l : κ) (a : α) (m : Assoc κ α) :
    get? k (put l a m) = if l = k then some a else get? k m := by
  induction m with
  | nil => rfl
  | cons e m ih =>
    obtain ⟨j, b⟩ := e
    by_cases h : j = l
    · subst h; by_cases hk : j = k <;> simp [put, get?, hk]
    · by_cases hk : j = k
      · subst hk; simp [put, get?, h, Ne.symm h]
      · simp [put, get?, h, hk, ih]

theorem get?_extend (k l : κ) (as : List α) (m : Assoc κ (List α)) :
    get? k (extend l as m) = if l = k then some ((get? k m).getD [] ++ as) else get? k m := by
  rw [extend, get?_put]
  by_cases h : l = k <;> simp [h]

/-- Writing a key keeps the order of the keys; a new one comes last. -/
theorem keys_put (k : κ) (a : α) (m : Assoc κ α) :
    keys (put k a m) = if k ∈ keys m then keys m else keys m ++ [k] := by
  induction m with
  | nil => simp [put, keys]
  | cons e m ih =>
    obtain ⟨j, b⟩ := e
    by_cases h : j = k
    · simp [put, keys, h]
    · simp only [keys] at ih ⊢
      by_cases hk : k ∈ m.map (·.1) <;> simp_all [put, eq_comm]

/-- After writing a key, there is nothing new but its value. -/
theorem mem_put {k : κ} {a : α} {m : Assoc κ α} {e : κ × α} (h : e ∈ put k a m) :
    e = (k, a) ∨ e ∈ m := by
  induction m with
  | nil => exact Or.inl (List.mem_singleton.1 h)
  | cons e' m ih =>
    obtain ⟨l, b⟩ := e'
    rw [put] at h
    split at h
    · rcases List.mem_cons.1 h with h | h
      · exact Or.inl h
      · exact Or.inr (List.mem_cons_of_mem _ h)
    · rcases List.mem_cons.1 h with h | h
      · exact Or.inr (h ▸ List.mem_cons_self)
      · exact (ih h).imp_right (List.mem_cons_of_mem _)

theorem mem_of_get? {k : κ} {a : α} {m : Assoc κ α} (h : get? k m = some a) : (k, a) ∈ m := by
  induction m with
  | nil => exact nomatch h
  | cons e m ih =>
    obtain ⟨l, b⟩ := e
    rw [get?] at h
    split at h
    · next hl =>
      obtain rfl := Option.some.inj h
      exact hl ▸ List.mem_cons_self
    · exact List.mem_cons_of_mem _ (ih h)

/-- If the keys are distinct, what is found under a key is what stands there. -/
theorem get?_eq_some_iff {k : κ} {a : α} {m : Assoc κ α} (h : (keys m).Nodup) :
    get? k m = some a ↔ (k, a) ∈ m := by
  refine ⟨mem_of_get?, fun hmem => ?_⟩
  induction m with
  | nil => exact absurd hmem List.not_mem_nil
  | cons e m ih =>
    obtain ⟨l, b⟩ := e
    obtain ⟨hl, hrest⟩ := List.nodup_cons.1 h
    rw [get?]
    rcases List.mem_cons.1 hmem with heq | hmem
    · obtain ⟨rfl, rfl⟩ := Prod.mk.inj heq
      exact if_pos rfl
    · have hne : l ≠ k := fun hlk => hl (List.mem_map.2 ⟨(k, a), hmem, hlk.symm⟩)
      rw [if_neg hne, ih hrest hmem]

theorem get?_eq_none_iff {k : κ} {m : Assoc κ α} : get? k m = none ↔ k ∉ keys m := by
  induction m with
  | nil => exact iff_of_true rfl List.not_mem_nil
  | cons e m ih =>
    obtain ⟨l, b⟩ := e
    have hkeys : keys ((l, b) :: m) = l :: keys m := rfl
    rw [get?, hkeys, List.mem_cons, not_or, ← ih]
    by_cases hl : l = k
    · simp [hl]
    · simp [hl, Ne.symm hl]

theorem get?_eq_find? (k : κ) (m : Assoc κ α) : get? k m = (m.find? (·.1 = k)).map (·.2) := by
  induction m with
  | nil => rfl
  | cons e m ih =>
    rw [get?, ih, List.find?_cons]
    by_cases h : e.1 = k <;> simp [h]

/-- Entries with other keys do not change what is found under a key. -/
theorem get?_filter (k : κ) (m : Assoc κ α) : get? k (m.filter (·.1 = k)) = get? k m := by
  rw [get?_eq_find?, get?_eq_find?, List.find?_filter]
  simp only [decide_eq_true_eq, and_self]

theorem put_of_notMem {k : κ} (a : α) {m : Assoc κ α} (h : k ∉ keys m) :
    put k a m = m ++ [(k, a)] := by
  induction m with
  | nil => rfl
  | cons e m ih =>
    obtain ⟨l, b⟩ := e
    have hl : l ≠ k := fun heq => h (heq ▸ List.mem_cons_self)
    rw [put, if_neg hl, ih fun hm => h (List.mem_cons_of_mem l hm), List.cons_append]

theorem nodup_keys_put (k : κ) (a : α) {m : Assoc κ α} (h : (keys m).Nodup) :
    (keys (put k a m)).Nodup := by
  rw [keys_put]
  split
  · exact h
  · next hk =>
    refine List.nodup_append.2 ⟨h, List.pairwise_singleton _ k, fun l hl j hj hlj => ?_⟩
    exact hk (List.mem_singleton.1 hj ▸ hlj ▸ hl)

/-- Whether a key is written does not matter to those entries that leave its key out. -/
theorem filter_put (p : κ → Bool) (k : κ) (a : α) (m : Assoc κ α) :
    (put k a m).filter (p ·.1) =
      if p k then put k a (m.filter (p ·.1)) else m.filter (p ·.1) := by
  induction m with
  | nil => cases hk : p k <;> simp [put, hk]
  | cons e m ih =>
    obtain ⟨l, b⟩ := e
    rw [put]
    by_cases hlk : l = k
    · subst hlk
      cases hl : p l <;> simp [put, hl]
    · rw [if_neg hlk, List.filter_cons, List.filter_cons, ih]
      cases hk : p k <;> cases hl : p l <;> simp [put, hlk]

/-- Removing a key keeps the order of the others. -/
theorem keys_remove (k : κ) {m : Assoc κ α} (h : (keys m).Nodup) :
    keys (remove k m) = (keys m).filter (· ≠ k) := by
  induction m with
  | nil => rfl
  | cons e m ih =>
    obtain ⟨l, b⟩ := e
    obtain ⟨hl, hm⟩ := List.nodup_cons.1 h
    have hkeys : keys ((l, b) :: m) = l :: keys m := rfl
    rw [remove, hkeys]
    by_cases hlk : l = k
    · subst hlk
      rw [if_pos rfl, List.filter_cons_of_neg (by simp), List.filter_eq_self.2]
      intro j hj
      exact decide_eq_true fun heq => hl (heq ▸ hj)
    · rw [if_neg hlk, List.filter_cons_of_pos (by simpa using hlk), ← ih hm]
      rfl

theorem get?_remove {m : Assoc κ α} (h : (keys m).Nodup) (k l : κ) :
    get? k (remove l m) = if l = k then none else get? k m := by
  induction m with
  | nil => simp [remove, get?]
  | cons e m ih =>
    obtain ⟨j, b⟩ := e
    obtain ⟨hj, hm⟩ := List.nodup_cons.1 h
    rw [remove]
    by_cases hjl : j = l
    · subst hjl
      rw [if_pos rfl, get?]
      split
      · next hjk =>
        subst hjk
        exact get?_eq_none_iff.2 hj
      · rfl
    · rw [if_neg hjl, get?, get?, ih hm]
      by_cases hjk : j = k
      · subst hjk
        rw [if_pos rfl, if_neg (Ne.symm hjl), if_pos rfl]
      · rw [if_neg hjk, if_neg hjk]

theorem remove_of_notMem {k : κ} {m : Assoc κ α} (h : k ∉ keys m) : remove k m = m := by
  induction m with
  | nil => rfl
  | cons e m ih =>
    obtain ⟨l, b⟩ := e
    have hl : l ≠ k := fun heq => h (heq ▸ List.mem_cons_self)
    rw [remove, if_neg hl, ih fun hm => h (List.mem_cons_of_mem _ hm)]

theorem keys_modify (k : κ) (f : α → α) (m : Assoc κ α) : keys (modify k f m) = keys m := by
  induction m with
  | nil => rfl
  | cons e m ih =>
    obtain ⟨l, b⟩ := e
    rw [modify]
    split
    · rfl
    · exact congrArg (l :: ·) ih

/-- After a value was changed, there is nothing new but what it was changed to. -/
theorem mem_modify {k : κ} {f : α → α} {m : Assoc κ α} {e : κ × α} (h : e ∈ modify k f m) :
    e ∈ m ∨ ∃ a, (k, a) ∈ m ∧ e = (k, f a) := by
  induction m with
  | nil => exact Or.inl h
  | cons e' m ih =>
    obtain ⟨l, b⟩ := e'
    rw [modify] at h
    split at h
    · next hl =>
      rcases List.mem_cons.1 h with h | h
      · exact Or.inr ⟨b, hl ▸ List.mem_cons_self, hl ▸ h⟩
      · exact Or.inl (List.mem_cons_of_mem _ h)
    · rcases List.mem_cons.1 h with h | h
      · exact Or.inl (h ▸ List.mem_cons_self)
      · rcases ih h with hm | ⟨a, ha, he⟩
        · exact Or.inl (List.mem_cons_of_mem _ hm)
        · exact Or.inr ⟨a, List.mem_cons_of_mem _ ha, he⟩

omit [DecidableEq κ] in
theorem keys_map_of_eq {f : κ × α → κ × β} (hf : ∀ e, (f e).1 = e.1) (m : Assoc κ α) :
    keys (m.map f) = keys m := by
  rw [keys, keys, List.map_map]
  exact List.map_congr_left fun e _ => hf e

/-- Writes every key of the second list into the first. -/
def putAll (m n : Assoc κ α) : Assoc κ α := n.foldl (fun m (k, a) => put k a m) m

theorem filter_putAll (p : κ → Bool) (m n : Assoc κ α) :
    (putAll m n).filter (p ·.1) = putAll (m.filter (p ·.1)) (n.filter (p ·.1)) := by
  induction n generalizing m with
  | nil => rfl
  | cons e n ih =>
    obtain ⟨k, a⟩ := e
    have hstep : putAll m ((k, a) :: n) = putAll (put k a m) n := rfl
    rw [hstep, ih, filter_put, List.filter_cons]
    cases p k <;> rfl

/-- Writing distinct new keys appends them. -/
theorem putAll_of_nodup {m n : Assoc κ α} (h : (keys (m ++ n)).Nodup) : putAll m n = m ++ n := by
  induction n generalizing m with
  | nil => exact (List.append_nil m).symm
  | cons e n ih =>
    obtain ⟨k, a⟩ := e
    have hstep : putAll m ((k, a) :: n) = putAll (put k a m) n := rfl
    have happend : m ++ (k, a) :: n = (m ++ [(k, a)]) ++ n := by rw [List.append_assoc]; rfl
    have hk : k ∉ keys m := fun hmem => by
      rw [keys, List.map_append, List.nodup_append] at h
      exact h.2.2 k hmem k (List.mem_map.2 ⟨(k, a), List.mem_cons_self, rfl⟩) rfl
    rw [hstep, put_of_notMem a hk, ih (happend ▸ h), happend]

end Assoc

end Annals

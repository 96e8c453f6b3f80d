import Annals.Once

/-!
# Lists that are handed out

A list that is handed out can be changed by whoever has it. On a shelf every list has a place, and what
is handed out is the place: `Shelf.read?_add` and `Shelf.read?_change` say what stands where after a list
was added or changed. `Once.getCopy` hands out a copy of a list that is built once, so that the list
itself stays out of reach.
-/

namespace Annals

/-- Lists, each at a place of its own. -/
structure Shelf (α : Type) where
  lists : List (List α) := []
  deriving DecidableEq, Repr

namespace Shelf

variable {α : Type} (shelf : Shelf α)

/-- The place that the next list is put at. -/
def next : Nat := shelf.lists.length

def read? (place : Nat) : Option (List α) := shelf.lists[place]?

/-- The shelf with one more list. -/
def add (l : List α) : Shelf α := ⟨shelf.lists ++ [l]⟩

/-- The shelf with another list at a place, if there is one at that place. -/
def change (place : Nat) (l : List α) : Shelf α := ⟨shelf.lists.set place l⟩

@[simp] theorem next_add (l : List α) : (shelf.add l).next = shelf.next + 1 :=
  List.length_append

@[simp] theorem next_change (place : Nat) (l : List α) : (shelf.change place l).next = shelf.next :=
  List.length_set

theorem read?_eq_none_iff {place : Nat} : shelf.read? place = none ↔ shelf.next ≤ place :=
  List.getElem?_eq_none_iff

/-- A list that is there is not where the next one is put. -/
theorem ne_next_of_read? {place : Nat} {l : List α} (h : shelf.read? place = some l) :
    place ≠ shelf.next := by
  rintro rfl
  rw [(shelf.read?_eq_none_iff).2 (Nat.le_refl _)] at h
  exact nomatch h

theorem read?_add (l : List α) (place : Nat) :
    (shelf.add l).read? place = if place = shelf.next then some l else shelf.read? place := by
  rcases Nat.lt_trichotomy place shelf.next with h | h | h
  · rw [if_neg (Nat.ne_of_lt h)]
    exact List.getElem?_append_left h
  · subst h
    rw [if_pos rfl]
    exact List.getElem?_concat_length
  · rw [if_neg (Nat.ne_of_gt h), (read?_eq_none_iff _).2 (Nat.le_of_lt h), read?_eq_none_iff, next_add]
    exact h

theorem read?_change (place : Nat) (l : List α) (other : Nat) :
    (shelf.change place l).read? other =
      if other = place then (shelf.read? place).map fun _ => l else shelf.read? other := by
  by_cases h : other = place
  · subst h
    rw [if_pos rfl]
    exact List.getElem?_set_self'
  · rw [if_neg h]
    exact List.getElem?_set_ne (Ne.symm h)

end Shelf

namespace Once

variable {α ε σ : Type}

/-- Builds a list and puts it on the shelf, at a place of its own. -/
def shelve (build : ExceptT ε (StateM σ) (List α)) : ExceptT ε (StateM (Shelf α × σ)) Nat :=
  ExceptT.mk fun (shelf, s) =>
    match build.run.run s with
    | (.ok l, s) => (.ok shelf.next, shelf.add l, s)
    | (.error f, s) => (.error f, shelf, s)

/-- The place of a new copy of the list that is kept, with the cell that keeps it. The list is built if
the cell is empty. -/
def getCopy (cell : Once Nat) (build : ExceptT ε (StateM σ) (List α)) :
    ExceptT ε (StateM (Shelf α × σ)) (Nat × Once Nat) := do
  let (place, cell) ← cell.get (shelve build)
  modifyGet fun (shelf, s) =>
    ((shelf.next, cell), shelf.add ((shelf.read? place).getD []), s)

/-- A cell that keeps a newly built list; the list is not handed out. -/
def rebuild (build : ExceptT ε (StateM σ) (List α)) :
    ExceptT ε (StateM (Shelf α × σ)) (Unit × Once Nat) := do
  let (_, cell) ← refresh (shelve build)
  return ((), cell)

end Once

end Annals

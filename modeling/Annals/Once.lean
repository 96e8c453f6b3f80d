/-!
# Values computed once

A cell holds a value after the first computation that succeeds. `Once.get` computes it if need be,
`Once.refresh` computes it in any case. A computation that fails leaves the cell as it was, since the
new cell is only given along with a value; `Once.hold` says so for an owner of the cell.
-/

namespace Annals

/-- A value that is computed when it is first asked for. -/
structure Once (α : Type) where
  /-- The value, once it is there. -/
  value? : Option α := none
  deriving DecidableEq, Repr

namespace Once

variable {α ε σ : Type}

def isComputed (cell : Once α) : Bool := cell.value?.isSome

/-- Computes the value and gives it with the cell that holds it. -/
def refresh (compute : ExceptT ε (StateM σ) α) : ExceptT ε (StateM σ) (α × Once α) := do
  let a ← compute
  return (a, ⟨some a⟩)

/-- The value and the cell that holds it; it is computed if the cell is empty. -/
def get (cell : Once α) (compute : ExceptT ε (StateM σ) α) :
    ExceptT ε (StateM σ) (α × Once α) :=
  match cell.value? with
  | some a => return (a, cell)
  | none => refresh compute

/-- Does something with the cell that an owner has. The owner keeps the cell if it fails, and has the new
one if not. -/
def hold {β : Type} (act : Once α → ExceptT ε (StateM σ) (β × Once α)) (owner : Once α × σ) :
    Except ε β × Once α × σ :=
  match (act owner.1).run.run owner.2 with
  | (.ok (b, cell), s) => (.ok b, cell, s)
  | (.error f, s) => (.error f, owner.1, s)

end Once

end Annals

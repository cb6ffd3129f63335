/-!
# Cells that are computed once

A cell runs its factory when it is first asked and keeps what the factory gives, a failure as well
as a value, until it is reset.  `runs` counts how often the factory ran.
-/

namespace TypeAtlas

/-- A result that is computed when it is first asked for. -/
structure Once (α : Type) where
  stored : Option α := none
  runs : Nat := 0
  deriving Repr

namespace Once

def isSet (cell : Once α) : Bool := cell.stored.isSome

/-- The result of the cell; the factory, which gets the number of its earlier runs, runs if there is
none yet. -/
def get [Monad m] (cell : Once α) (factory : Nat → m α) : m (α × Once α) :=
  match cell.stored with
  | some result => pure (result, cell)
  | none => do
    let result ← factory cell.runs
    pure (result, ⟨some result, cell.runs + 1⟩)

def reset (cell : Once α) : Once α := { cell with stored := none }

end Once
end TypeAtlas

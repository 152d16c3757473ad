/-!
# Rings

A ring keeps the latest entries up to a capacity. Once it is full, a new entry takes the place of
the oldest one.
-/

namespace CatalystAsm.Trace

/-- Entries in their cells, and the cell of the oldest one. -/
structure Ring (α : Type) where
  capacity : Nat
  cells : List α := []
  next : Nat := 0
  deriving Repr

namespace Ring

/-- The capacity of a ring that is asked for without one. -/
def defaultCapacity : Nat := 4096

/-- An empty ring; a capacity of zero or less stands for the default. -/
def ofCapacity {α : Type} (capacity : Int) : Ring α :=
  { capacity := if capacity ≤ 0 then defaultCapacity else capacity.toNat }

/-- The ring with one more entry. -/
def push {α : Type} (r : Ring α) (a : α) : Ring α :=
  if r.cells.length < r.capacity then { r with cells := r.cells ++ [a] }
  else { r with cells := r.cells.set r.next a, next := (r.next + 1) % r.cells.length }

/-- The entries, oldest first. -/
def toList {α : Type} (r : Ring α) : List α := r.cells.drop r.next ++ r.cells.take r.next

/-- The ring with every entry changed. -/
def map {α β : Type} (f : α → β) (r : Ring α) : Ring β :=
  { capacity := r.capacity, cells := r.cells.map f, next := r.next }

end Ring

end CatalystAsm.Trace

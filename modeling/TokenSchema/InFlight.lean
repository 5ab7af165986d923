import Std.Data.TreeMap

/-!
# Requests in flight

Requests for the same thing share one answer while the first of them is being made. Each key that is
asked for has a cell. The first request for a key opens a cell and makes the request; a request that
comes while the cell is running waits for it; one that finds an abandoned cell takes it over. The cell
leaves the table when its request is finished, so a later request makes a call of its own.
-/

namespace TokenSchema

/-- How far a shared request has come. -/
inductive Cell (α : Type) where
  /-- Nobody is making the request. -/
  | idle
  | running
  | ready (answer : α)
  deriving DecidableEq, Repr

/-- The keys being asked for, and all cells by number. -/
structure InFlight (κ α : Type) where
  pending : List (κ × Nat)
  cells : Std.TreeMap Nat (Cell α)
  /-- The number of the next cell. -/
  next : Nat

namespace InFlight

variable {κ α : Type} [DecidableEq κ]

/-- Nothing is being asked for. -/
def empty : InFlight κ α :=
  ⟨[], ∅, 0⟩

/-- The cell of a key. -/
def cellOf? (t : InFlight κ α) (key : κ) : Option Nat :=
  t.pending.lookup key

/-- How far a cell has come. -/
def status (t : InFlight κ α) (cell : Nat) : Cell α :=
  (t.cells.get? cell).getD .idle

/-- Set how far a cell has come. -/
def setStatus (t : InFlight κ α) (cell : Nat) (c : Cell α) : InFlight κ α :=
  { t with cells := t.cells.insert cell c }

/-- Join the cell of a key, opening one if there is none. -/
def join (t : InFlight κ α) (key : κ) : Nat × InFlight κ α :=
  match t.cellOf? key with
  | some cell => (cell, t)
  | none =>
      (t.next, { pending := (key, t.next) :: t.pending
                 cells := t.cells.insert t.next .idle
                 next := t.next + 1 })

/-- Start making the request of a cell. -/
def start (t : InFlight κ α) (cell : Nat) : InFlight κ α :=
  t.setStatus cell .running

/-- Take a key off the table, if it still stands for the cell. -/
def leave (t : InFlight κ α) (key : κ) (cell : Nat) : InFlight κ α :=
  if t.cellOf? key = some cell then
    { t with pending := t.pending.filter fun e => e.1 ≠ key }
  else t

/-- Finish the request of a cell with an answer. -/
def finish (t : InFlight κ α) (key : κ) (cell : Nat) (answer : α) : InFlight κ α :=
  (t.setStatus cell (.ready answer)).leave key cell

/-- Give up the request of a cell; the key stays on the table. -/
def abandon (t : InFlight κ α) (cell : Nat) : InFlight κ α :=
  t.setStatus cell .idle

end InFlight

end TokenSchema
